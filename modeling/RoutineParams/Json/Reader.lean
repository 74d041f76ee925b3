import RoutineParams.Json.Value
import RoutineParams.Text.Decimal
import RoutineParams.Text.DoubleRange
import RoutineParams.Text.Hexadecimal

/-!
# Reading JSON

A text is read as one JSON value with blanks around it, or not at all. Values may lie in one
another up to `maxDepth` levels deep, and no number is beyond the range of doubles.

    Json.parse? s                     the value that `s` writes
-/

namespace RoutineParams.Json

/-- How many arrays and objects may lie around a value. -/
def maxDepth : Nat := 127

def isSpace (c : Char) : Bool := c == ' ' || c == '\t' || c == '\n' || c == '\r'

def skipSpace (s : List Char) : List Char := s.dropWhile isSpace

/-- The character of a one-letter escape. -/
def unescape? (c : Char) : Option Char :=
  if c = '"' ∨ c = '\\' ∨ c = '/' then some c
  else if c = 'b' then some '\x08'
  else if c = 'f' then some '\x0c'
  else if c = 'n' then some '\n'
  else if c = 'r' then some '\r'
  else if c = 't' then some '\t'
  else none

/-- Reads a quoted text after its opening quote, with the characters `done` (last one first)
already read. Characters outside the basic plane may be written as two escapes. -/
def readText (done : List Char) : List Char → Option (String × List Char)
  | [] => none
  | '"' :: s => some (String.ofList done.reverse, s)
  | '\\' :: 'u' :: a :: b :: c :: d :: '\\' :: 'u' :: e :: f :: g :: h :: s =>
    match readHex? [a, b, c, d], readHex? [e, f, g, h] with
    | some hi, some lo =>
      if 0xD800 ≤ hi ∧ hi < 0xDC00 then
        if 0xDC00 ≤ lo ∧ lo < 0xE000 then
          readText (Char.ofNat (0x10000 + (hi - 0xD800) * 0x400 + (lo - 0xDC00)) :: done) s
        else none
      else if 0xDC00 ≤ hi ∧ hi < 0xE000 then none
      else readText (Char.ofNat hi :: done) ('\\' :: 'u' :: e :: f :: g :: h :: s)
    | _, _ => none
  | '\\' :: 'u' :: a :: b :: c :: d :: s =>
    match readHex? [a, b, c, d] with
    | some n => if 0xD800 ≤ n ∧ n < 0xE000 then none else readText (Char.ofNat n :: done) s
    | none => none
  | '\\' :: c :: s =>
    match unescape? c with
    | some c => readText (c :: done) s
    | none => none
  | c :: s => if c.toNat < 0x20 then none else readText (c :: done) s

def cutDigits (s : List Char) : List Char × List Char :=
  (s.takeWhile Char.isDigit, s.dropWhile Char.isDigit)

/-- The fraction at the front: a point and at least one digit. -/
def readFraction? : List Char → Option (List Char × List Char)
  | '.' :: s =>
    match cutDigits s with
    | ([], _) => none
    | (ds, s) => some ('.' :: ds, s)
  | s => some ([], s)

/-- The exponent at the front: a letter, perhaps a sign, and at least one digit. -/
def readExponent? : List Char → Option (List Char × List Char)
  | [] => some ([], [])
  | e :: s =>
    if e = 'e' ∨ e = 'E' then
      let (sign, s) := match s with
        | '+' :: s => (['+'], s)
        | '-' :: s => (['-'], s)
        | s => ([], s)
      match cutDigits s with
      | ([], _) => none
      | (ds, s) => some (e :: sign ++ ds, s)
    else some ([], e :: s)

/-- Appends digits to the number `n` as long as it stays below two to the power 64, and gives the
digits that are left. -/
def appendDigits (n : Nat) : List Char → Nat × List Char
  | [] => (n, [])
  | c :: s =>
    let next := n * 10 + digitValue c
    if next < Nat.pow 2 64 then appendDigits next s else (n, c :: s)

/-- The value of an exponent, of which an empty one is zero. -/
def exponentValue : List Char → Int
  | _ :: '-' :: ds => -(readDecimal ds : Int)
  | _ :: '+' :: ds => readDecimal ds
  | _ :: ds => readDecimal ds
  | [] => 0

/-- Whether a number is within the range of doubles. The digits beyond its first 64 bits count as
zeros. -/
def isInRange (whole fraction exponent : List Char) : Bool :=
  let (n, wholeRest) := appendDigits 0 whole
  let places := fraction.drop 1
  let (n, placesRest) := appendDigits n places
  let shift : Int := wholeRest.length + placesRest.length - places.length
  !isScaledTooLarge n (shift + exponentValue exponent)

/-- The number at the front, within the range of doubles. A number of several digits does not start
with 0, and a negative zero is no whole number. -/
def readNumber? (s : List Char) : Option (Json × List Char) := do
  let (negative, s) := match s with
    | '-' :: s => (true, s)
    | s => (false, s)
  let (whole, s) := cutDigits s
  if whole = [] ∨ (whole.head? = some '0' ∧ whole ≠ ['0']) then none
  else
    let (fraction, s) ← readFraction? s
    let (exponent, s) ← readExponent? s
    if !isInRange whole fraction exponent then none
    else if fraction = [] ∧ exponent = [] ∧ ¬ (negative ∧ whole = ['0']) then
      let n := readDecimal whole
      some (.int (if negative then -(n : Int) else n), s)
    else
      let sign := if negative then ['-'] else []
      some (.decimal (String.ofList (sign ++ whole ++ fraction ++ exponent)), s)

/-- Reads the items of an array up to its end, after the items `done` (last one first); each is
read by `read`. There are at most `fuel` of them. -/
def readItems (read : List Char → Option (Json × List Char)) (fuel : Nat) (done : List Json)
    (s : List Char) : Option (Json × List Char) :=
  match fuel with
  | 0 => none
  | fuel + 1 => do
    let (j, s) ← read (skipSpace s)
    match skipSpace s with
    | ',' :: s => readItems read fuel (j :: done) s
    | ']' :: s => some (.arr (j :: done).reverse, s)
    | _ => none

/-- Reads the members of an object up to its end, after the members `done`; each value is read by
`read`. There are at most `fuel` of them. -/
def readMembers (read : List Char → Option (Json × List Char)) (fuel : Nat)
    (done : List (String × Json)) (s : List Char) : Option (Json × List Char) :=
  match fuel, skipSpace s with
  | fuel + 1, '"' :: s => do
    let (k, s) ← readText [] s
    match skipSpace s with
    | ':' :: s =>
      let (j, s) ← read (skipSpace s)
      match skipSpace s with
      | ',' :: s => readMembers read fuel (put done k j) s
      | '}' :: s => some (.obj (put done k j), s)
      | _ => none
    | _ => none
  | _, _ => none

/-- Reads the value at the front, which lies in no more than `depth` others of its text. -/
def readValue (depth : Nat) (s : List Char) : Option (Json × List Char) :=
  match s with
  | 'n' :: 'u' :: 'l' :: 'l' :: s => some (.null, s)
  | 't' :: 'r' :: 'u' :: 'e' :: s => some (.bool true, s)
  | 'f' :: 'a' :: 'l' :: 's' :: 'e' :: s => some (.bool false, s)
  | '"' :: s => do
    let (t, s) ← readText [] s
    some (.str t, s)
  | '[' :: s =>
    match depth with
    | 0 => none
    | depth + 1 =>
      match skipSpace s with
      | ']' :: s => some (.arr [], s)
      | s => readItems (readValue depth) s.length [] s
  | '{' :: s =>
    match depth with
    | 0 => none
    | depth + 1 =>
      match skipSpace s with
      | '}' :: s => some (.obj [], s)
      | s => readMembers (readValue depth) s.length [] s
  | s => readNumber? s
termination_by structural depth

def parse? (text : String) : Option Json :=
  match readValue maxDepth (skipSpace text.toList) with
  | some (j, s) => if skipSpace s = [] then some j else none
  | none => none

end RoutineParams.Json
