import RoutineParams.Text.Blank

/-!
# Batches of a script

A script falls into batches at the lines that hold nothing but `GO`, in any case and with blanks
around it. A line ends with its newline. Batches of blanks alone are left out.

The script is read once: `batchesFrom` holds the batch before the current line and that line, both
with the last character first.
-/

namespace RoutineParams

/-- Whether a line separates batches. -/
def isSeparator (line : List Char) : Bool := (trimBlank line).map Char.toUpper == ['G', 'O']

/-- All batches, the last one first, of a script whose complete batches are `done`, whose current
batch is `batch` up to the current line, of which `line` is read. -/
def batchesFrom (done : List (List Char)) (batch line : List Char) :
    List Char → List (List Char)
  | [] =>
    if isSeparator line.reverse then batch.reverse :: done else (line ++ batch).reverse :: done
  | c :: s =>
    if c = '\n' then
      if isSeparator (c :: line).reverse then batchesFrom (batch.reverse :: done) [] [] s
      else batchesFrom done (c :: line ++ batch) [] s
    else batchesFrom done batch (c :: line) s

/-- The batches of a script that are not blank, in order. -/
def batches (script : List Char) : List (List Char) :=
  (batchesFrom [] [] [] script).reverse.filter fun batch => !isAllBlank batch

def splitScript (script : String) : List String := (batches script.toList).map String.ofList

end RoutineParams
