import RoutineParams.RoutineKind
import RoutineParams.Text.WordChar

/-!
# The header of a routine

A batch defines a routine if it holds `CREATE`, `CREATE OR ALTER` or `ALTER`, then `PROCEDURE`,
`PROC` or `FUNCTION`, then a name, with blanks between them, the first word at the start of a word.
The first such place counts, wherever in the batch it lies. Letters match in both cases.

A name is parts between points. A part is a text in brackets, or starts with a letter of ASCII (or
a letter that folds to one), `_` or `#`. Blanks around the points are left out.

    header? batch                     the kind and the name of the routine that a batch defines
-/

namespace RoutineParams

/-! ## Algorithm -/

structure Header where
  kind : RoutineKind
  name : String
deriving DecidableEq, Repr

/-- The text after the word `w`, which is given in upper case, in either case at the front. -/
def afterWord? : (w s : List Char) → Option (List Char)
  | [], s => some s
  | _ :: _, [] => none
  | a :: w, c :: s => if c.toUpper = a then afterWord? w s else none

def afterBlanks? : List Char → Option (List Char)
  | [] => none
  | c :: s => if isBlank c then some (s.dropWhile isBlank) else none

/-- A character that can begin a part of a name outside brackets. Letters that fold to `k` and `s`
are among them. -/
def isNameStart (c : Char) : Bool :=
  c.isAlpha || c == '_' || c == '#' || c == '\u017f' || c == '\u212a'

/-- A character that can continue a part of a name outside brackets. -/
def isNamePart (c : Char) : Bool := isWordChar c || c == '@' || c == '$' || c == '#'

/-- The length of the part of a name at the front, 0 where there is none. -/
def partLength : List Char → Nat
  | [] => 0
  | c :: s =>
    if c = '[' then
      let inner := s.takeWhile (· != ']')
      if inner = [] ∨ inner.length = s.length then 0 else inner.length + 2
    else if isNameStart c then 1 + (s.takeWhile isNamePart).length
    else 0

/-- The length of a point and a part at the front, with the blanks around the point, 0 where there
are none. -/
def dottedLength (s : List Char) : Nat :=
  let before := (s.takeWhile isBlank).length
  match s.drop before with
  | '.' :: t =>
    let after := (t.takeWhile isBlank).length
    match partLength (t.drop after) with
    | 0 => 0
    | n => before + 1 + after + n
  | _ => 0

/-- The length of all further parts of a name at the front. -/
def furtherLength : List Char → Nat
  | [] => 0
  | c :: s =>
    match dottedLength (c :: s) with
    | 0 => 0
    | n + 1 => n + 1 + furtherLength (s.drop n)
termination_by s => s.length
decreasing_by simp only [List.length_drop, List.length_cons]; omega

/-- The name at the front, as it is written. -/
def name? (s : List Char) : Option (List Char) :=
  match partLength s with
  | 0 => none
  | n => some (s.take (n + furtherLength (s.drop n)))

/-- A text without the blanks around its points. -/
def tightenDots : List Char → List Char
  | [] => []
  | c :: s =>
    match _h : (c :: s).dropWhile isBlank with
    | '.' :: t => '.' :: tightenDots (t.dropWhile isBlank)
    | _ => c :: tightenDots s
termination_by s => s.length
decreasing_by
  · have h₁ := (List.dropWhile_suffix isBlank (l := c :: s)).length_le
    have h₂ := (List.dropWhile_suffix isBlank (l := t)).length_le
    rw [_h] at h₁
    simp at h₁ ⊢
    omega
  · simp

/-- The text after `CREATE`, `CREATE OR ALTER` or `ALTER` at the front. -/
def afterVerb? (s : List Char) : Option (List Char) :=
  match afterWord? ['C', 'R', 'E', 'A', 'T', 'E'] s with
  | some t =>
    let longer := do
      let t ← afterBlanks? t
      let t ← afterWord? ['O', 'R'] t
      let t ← afterBlanks? t
      afterWord? ['A', 'L', 'T', 'E', 'R'] t
    some (longer.getD t)
  | none => afterWord? ['A', 'L', 'T', 'E', 'R'] s

/-- The kind of routine that a word at the front names, and the text after it. -/
def afterKind? (s : List Char) : Option (RoutineKind × List Char) :=
  match afterWord? ['P', 'R', 'O', 'C'] s with
  | some t =>
    some (.procedure, (afterWord? ['E', 'D', 'U', 'R', 'E'] t).getD t)
  | none =>
    (afterWord? ['F', 'U', 'N', 'C', 'T', 'I', 'O', 'N'] s).map fun t => (.function, t)

def headerAt? (s : List Char) : Option Header := do
  let s ← afterVerb? s
  let s ← afterBlanks? s
  let (kind, s) ← afterKind? s
  let s ← afterBlanks? s
  let name ← name? s
  some ⟨kind, String.ofList (tightenDots name)⟩

/-- The first header of a text. `inWord` tells whether a character of a word lies before it. -/
def headerFrom? (inWord : Bool) : List Char → Option Header
  | [] => none
  | c :: s =>
    match if inWord then none else headerAt? (c :: s) with
    | some h => some h
    | none => headerFrom? (isWordChar c) s

/-- The header of the routine that a batch defines. -/
def header? (batch : String) : Option Header := headerFrom? false batch.toList

end RoutineParams
