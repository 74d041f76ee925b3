/-!
# Bytes that may be no text

Bytes are read as UTF-8 as far as that is what they are. A character that is begun and does not go
on is read as one replacement character, and so is a byte that begins none.
-/

namespace RoutineParams

/-- The character that stands for bytes that are no text. -/
def replacementChar : Char := '\uFFFD'

/-- A character that is begun: its number as far as it is read, the bounds of the next byte, and how
many bytes follow that one. -/
structure BegunChar where
  number : Nat
  low : Nat
  high : Nat
  more : Nat

/-- What a byte begins: a character that is complete, or one that goes on. The bounds of the second
byte leave out what has a shorter form, halves of surrogate pairs, and numbers beyond the last. -/
def beginChar (b : UInt8) : List Char × Option BegunChar :=
  let n := b.toNat
  if n < 0x80 then ([Char.ofNat n], none)
  else if n < 0xC2 then ([replacementChar], none)
  else if n < 0xE0 then ([], some ⟨n - 0xC0, 0x80, 0xBF, 0⟩)
  else if n < 0xF0 then
    ([], some ⟨n - 0xE0, if n = 0xE0 then 0xA0 else 0x80, if n = 0xED then 0x9F else 0xBF, 1⟩)
  else if n < 0xF5 then
    ([], some ⟨n - 0xF0, if n = 0xF0 then 0x90 else 0x80, if n = 0xF4 then 0x8F else 0xBF, 2⟩)
  else ([replacementChar], none)

/-- The text of the bytes after those of a character that is begun, if there is one. -/
def textOfBytesFrom : Option BegunChar → List UInt8 → List Char
  | none, [] => []
  | some _, [] => [replacementChar]
  | none, b :: bytes =>
    let (done, next) := beginChar b
    done ++ textOfBytesFrom next bytes
  | some c, b :: bytes =>
    if c.low ≤ b.toNat ∧ b.toNat ≤ c.high then
      let number := c.number * 64 + (b.toNat - 0x80)
      match c.more with
      | 0 => Char.ofNat number :: textOfBytesFrom none bytes
      | more + 1 => textOfBytesFrom (some ⟨number, 0x80, 0xBF, more⟩) bytes
    else
      let (done, next) := beginChar b
      replacementChar :: (done ++ textOfBytesFrom next bytes)

def textOfBytes (bytes : List UInt8) : List Char := textOfBytesFrom none bytes

end RoutineParams
