import RoutineParams.Storage.Command
import RoutineParams.Text.Decimal

/-!
# Affinities

A column changes the values that are put into it, and those that it is compared with, towards the
kind that it prefers: texts that write a number become that number in a column of numbers, and
whole numbers become texts in a column of texts.

    a.convert v                       what a column of the affinity `a` makes of `v`
-/

namespace RoutineParams.Storage

def trimBlanks (s : List Char) : List Char :=
  let isBlank (c : Char) : Bool := c == ' ' || ('\t' ≤ c && c ≤ '\r')
  ((s.dropWhile isBlank).reverse.dropWhile isBlank).reverse

/-- The sign at the front, and what follows it. -/
def cutSign : List Char → Bool × List Char
  | '-' :: s => (true, s)
  | '+' :: s => (false, s)
  | s => (false, s)

/-- The exponent that a text writes after the digits of a number, if it writes nothing else. -/
def exponentIn? : List Char → Option Int
  | [] => some 0
  | c :: s =>
    let (isNegative, digits) := cutSign s
    if (c = 'e' ∨ c = 'E') ∧ digits ≠ [] ∧ digits.all Char.isDigit then
      some (if isNegative then -(readDecimal digits : Int) else readDecimal digits)
    else none

/-- The real number of some digits times a power of ten. -/
def realOf (isNegative : Bool) (digits : List Char) (exponent : Int) : Float :=
  let x := Float.ofScientific (readDecimal digits) (exponent < 0) exponent.natAbs
  if isNegative then -x else x

/-- A real number as a value, which is a whole number if it equals one. -/
def wholeIfEqual (x : Float) : Value :=
  let n := x.toInt64
  if Value.cmpIntReal n x = .eq then .int n else .real x

/-- The number that a text writes, with blanks around it. -/
def numberIn? (s : List Char) : Option Value := do
  let (isNegative, s) := cutSign (trimBlanks s)
  let whole := s.takeWhile Char.isDigit
  let (fraction, rest) :=
    match s.dropWhile Char.isDigit with
    | '.' :: s => (s.takeWhile Char.isDigit, s.dropWhile Char.isDigit)
    | s => ([], s)
  if whole = [] ∧ fraction = [] then none
  else
    let exponent ← exponentIn? rest
    let n : Int := if isNegative then -(readDecimal whole : Int) else readDecimal whole
    if whole.length = s.length ∧ -(Nat.pow 2 63 : Int) ≤ n ∧ n < Nat.pow 2 63 then
      some (.int (Int64.ofInt n))
    else some (.real (realOf isNegative (whole ++ fraction) (exponent - fraction.length)))

/-- What a column of an affinity makes of a value. Real numbers that are whole are kept as whole
numbers, in a column of real numbers too. -/
def Affinity.convert (a : Affinity) (v : Value) : Value :=
  match a, v with
  | text, .int n => .text (String.ofList (decimalInt n.toInt))
  | numeric, .text s | integer, .text s | real, .text s =>
    match numberIn? s.toList with
    | some (.real x) => wholeIfEqual x
    | some w => w
    | none => v
  | _, v => v

end RoutineParams.Storage
