/-!
# Positions in a text

A position is a line and a column, both counted from 1; a newline ends its line, and every
other character moves one column on.

    Position.after s                  the position reached by reading `s`
    TextIndex.offset? p               how many characters of the text lie before `p`
    TextIndex.between? p q            the characters of the text from `p` up to `q`
-/

namespace RoutineParams

structure Position where
  line : Nat
  column : Nat
deriving DecidableEq, Repr

def Position.start : Position := ⟨1, 1⟩

def Position.next (p : Position) (c : Char) : Position :=
  if c = '\n' then ⟨p.line + 1, 1⟩ else ⟨p.line, p.column + 1⟩

/-- The position reached by reading `s` from the start. -/
def Position.after (s : List Char) : Position := s.foldl Position.next Position.start

/-- How many characters come before each line of a text. -/
def lineStarts (s : List Char) : Array Nat :=
  (s.foldl (fun (n, starts) c => (n + 1, if c = '\n' then starts.push (n + 1) else starts))
    (0, #[0])).2

/-- A text in which places are found by line and column. -/
structure TextIndex where
  text : Array Char
  starts : Array Nat

namespace TextIndex

def ofText (s : List Char) : TextIndex := ⟨s.toArray, lineStarts s⟩

/-- How many characters of the text come before a position. There is none before a line that the
text does not have; a column past the end stands for the end. -/
def offset? (index : TextIndex) (p : Position) : Option Nat :=
  match p.line with
  | 0 => none
  | n + 1 => index.starts[n]?.map fun before => min (before + (p.column - 1)) index.text.size

/-- The characters from a position up to another, if there are any. -/
def between? (index : TextIndex) (p q : Position) : Option (List Char) :=
  match index.offset? p, index.offset? q with
  | some i, some j => if i < j then some (index.text.extract i j).toList else none
  | _, _ => none

end TextIndex

end RoutineParams
