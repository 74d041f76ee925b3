/-!
# Numbers in bytes

Whole numbers as a database file writes them: in a set number of bytes, the highest one first, or
in as few as need be, with seven bits in each byte and a mark on all but the last. The ninth byte
of such a short form is its last and has eight bits.
-/

namespace RoutineParams.Storage

/-- The number that bytes write, the highest one first. -/
def numberOf (bytes : List UInt8) : Nat := bytes.foldl (fun n b => n * 256 + b.toNat) 0

/-- The lowest `size` bytes of a number, the highest one first. -/
def bytesOf : (size n : Nat) → List UInt8
  | 0, _ => []
  | size + 1, n => bytesOf size (n / 256) ++ [UInt8.ofNat n]

def numberAt? (data : ByteArray) (start size : Nat) : Option Nat :=
  if start + size ≤ data.size then some (numberOf (data.extract start (start + size)).toList)
  else none

/-- The length of the short form of a number that has room for `more` bytes after the first. -/
def shortSizeWithin : (more n : Nat) → Nat
  | 0, _ => 1
  | more + 1, n => if n < 128 then 1 else shortSizeWithin more (n / 128) + 1

def shortSize (n : Nat) : Nat := shortSizeWithin 8 n

/-- The lowest groups of seven bits of a number, each in a marked byte. -/
def markedGroups : (count n : Nat) → List UInt8
  | 0, _ => []
  | count + 1, n => markedGroups count (n / 128) ++ [UInt8.ofNat (n % 128 + 128)]

/-- The short form of a number of 64 bits. -/
def shortBytes (n : Nat) : List UInt8 :=
  let size := shortSize n
  if size < 9 then markedGroups (size - 1) (n / 128) ++ [UInt8.ofNat (n % 128)]
  else markedGroups 8 (n / 256) ++ [UInt8.ofNat n]

/-- Reads a short form on from a place, with room for `more` bytes after the next, where `done` is
read already. Gives the number and the place after it. -/
def readShortWithin? (data : ByteArray) : (more done start : Nat) → Option (Nat × Nat)
  | 0, done, start => do return (done * 256 + (← data[start]?).toNat, start + 1)
  | more + 1, done, start => do
    let b ← data[start]?
    if b < 128 then return (done * 128 + b.toNat, start + 1)
    else readShortWithin? data more (done * 128 + (b.toNat - 128)) (start + 1)

/-- The number whose short form is at a place, and the place after it. -/
def readShort? (data : ByteArray) (start : Nat) : Option (Nat × Nat) :=
  readShortWithin? data 8 0 start

/-- The whole number with a sign that `size` bytes write, which have the value `n` without one. -/
def signed (size n : Nat) : Int :=
  let range := Nat.pow 256 size
  if 2 * n < range then n else (n : Int) - range

/-- The value without a sign of 64 bits. -/
def unsigned (n : Int64) : Nat := n.toUInt64.toNat

end RoutineParams.Storage
