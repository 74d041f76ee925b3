/-!
# Hexadecimal notation

Digits of base sixteen. They are read in either case and written in one of the two.

    hexValue? (lowerHexDigit d) = some d   for d < 16                    (hexValue?_lowerHexDigit)
    hexValue? (upperHexDigit d) = some d   for d < 16                    (hexValue?_upperHexDigit)
-/

namespace RoutineParams

/-! ## Algorithm -/

def hexValue? (c : Char) : Option Nat :=
  if c.isDigit then some (c.toNat - '0'.toNat)
  else if 'a' ≤ c ∧ c ≤ 'f' then some (c.toNat - 'a'.toNat + 10)
  else if 'A' ≤ c ∧ c ≤ 'F' then some (c.toNat - 'A'.toNat + 10)
  else none

def isHexDigit (c : Char) : Bool := (hexValue? c).isSome

def readHex? (digits : List Char) : Option Nat := do
  return (← digits.mapM hexValue?).foldl (fun n d => n * 16 + d) 0

/-- The lower-case digit of a number below 16. -/
def lowerHexDigit (d : Nat) : Char :=
  if d < 10 then Char.ofNat (d + '0'.toNat) else Char.ofNat (d - 10 + 'a'.toNat)

/-- The upper-case digit of a number below 16. -/
def upperHexDigit (d : Nat) : Char :=
  if d < 10 then Char.ofNat (d + '0'.toNat) else Char.ofNat (d - 10 + 'A'.toNat)

def lowerHex (n : Nat) : List Char :=
  if n < 16 then [lowerHexDigit n] else lowerHex (n / 16) ++ [lowerHexDigit (n % 16)]

/-! ## Lemmas -/

theorem hexValue?_lowerHexDigit : ∀ d, d < 16 → hexValue? (lowerHexDigit d) = some d := by decide

theorem hexValue?_upperHexDigit : ∀ d, d < 16 → hexValue? (upperHexDigit d) = some d := by decide

end RoutineParams
