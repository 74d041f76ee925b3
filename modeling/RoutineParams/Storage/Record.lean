import RoutineParams.Storage.Number

/-!
# Records

A row of a table and an entry of an index are records: values in order, written as the codes of all
values, with the length of that head in front, and then the bytes of all values. A whole number
takes as few bytes as it needs, and 0 and 1 take none. Numbers come before texts, and texts before
other bytes.

    Record.encode vs                  the bytes of the values `vs`
    Record.decode? b                  the values that `b` writes
-/

namespace RoutineParams.Storage

inductive Value where
  | null
  | int (n : Int64)
  | real (x : Float)
  | text (s : String)
  /-- A text that is not valid UTF-8. -/
  | brokenText (data : ByteArray)
  | blob (data : ByteArray)

namespace Value

def isNull : Value → Bool
  | null => true
  | _ => false

/-- The number of bytes that a whole number takes besides its code. -/
def intSize (n : Int64) : Nat :=
  let fits (size : Nat) : Bool := signed size (unsigned n % Nat.pow 256 size) == n.toInt
  if n = 0 ∨ n = 1 then 0 else ([1, 2, 3, 4, 6].find? fits).getD 8

def code : Value → Nat
  | null => 0
  | int n =>
    match intSize n with
    | 0 => if n = 0 then 8 else 9
    | 6 => 5
    | 8 => 6
    | size => size
  | real _ => 7
  | text s => 2 * s.utf8ByteSize + 13
  | brokenText data => 2 * data.size + 13
  | blob data => 2 * data.size + 12

def bytes : Value → ByteArray
  | null => .empty
  | int n => ⟨(bytesOf (intSize n) (unsigned n)).toArray⟩
  | real x => ⟨(bytesOf 8 x.toBits.toNat).toArray⟩
  | text s => s.toByteArray
  | brokenText data | blob data => data

def sizeOfCode (code : Nat) : Nat :=
  match code with
  | 0 | 8 | 9 | 10 | 11 => 0
  | 5 => 6
  | 6 | 7 => 8
  | code => if code < 5 then code else (code - 12) / 2

def ofBytes (code : Nat) (data : ByteArray) : Value :=
  let number (size : Nat) : Value := int (Int64.ofInt (signed size (numberOf data.toList)))
  match code with
  | 0 | 10 | 11 => null
  | 8 => int 0
  | 9 => int 1
  | 5 => number 6
  | 6 => number 8
  | 7 => real (Float.ofBits (UInt64.ofNat (numberOf data.toList)))
  | code =>
    if code < 5 then number code
    else if code % 2 = 0 then blob data
    else
      match String.fromUTF8? data with
      | some s => text s
      | none => brokenText data

/-- The place of a kind of values in the order of all values. -/
def rank : Value → Nat
  | null => 0
  | int _ | real _ => 1
  | text _ | brokenText _ => 2
  | blob _ => 3

def cmpReals (x y : Float) : Ordering := if x < y then .lt else if y < x then .gt else .eq

/-- The order of a whole number and a real one, which may have no whole number of 64 bits near
it. -/
def cmpIntReal (n : Int64) (x : Float) : Ordering :=
  let bound := Float.ofNat (Nat.pow 2 63)
  if x < -bound then .gt
  else if bound ≤ x then .lt
  else (compare n x.toInt64).then (cmpReals (Float.ofInt n.toInt) x)

/-- The order of values: numbers, texts, other bytes. -/
def cmp (a b : Value) : Ordering :=
  match a, b with
  | int m, int n => compare m n
  | int n, real x => cmpIntReal n x
  | real x, int n => (cmpIntReal n x).swap
  | real x, real y => cmpReals x y
  | text s, text t => compare s t
  | a, b => (compare a.rank b.rank).then (compareOfLessAndEq a.bytes.toList b.bytes.toList)

end Value

/-- The order of records: that of their first values that differ. -/
def cmpValues : (vs ws : List Value) → Ordering
  | [], [] => .eq
  | [], _ :: _ => .lt
  | _ :: _, [] => .gt
  | v :: vs, w :: ws => (v.cmp w).then (cmpValues vs ws)

namespace Record

def encode (vs : List Value) : ByteArray :=
  let codes := vs.flatMap fun v => shortBytes v.code
  let size := codes.length + (if codes.length < 127 then 1 else 2)
  vs.foldl (fun data v => data ++ v.bytes) ⟨(shortBytes size ++ codes).toArray⟩

/-- The codes of values between two places. -/
def codes? (data : ByteArray) (start stop : Nat) : Option (List Nat) :=
  if start < stop then
    match readShort? data start with
    | some (code, next) =>
      if start < next then (codes? data next stop).map (code :: ·) else none
    | none => none
  else some []
termination_by stop - start

/-- The values with these codes whose bytes start at a place. -/
def values? (data : ByteArray) (start : Nat) : List Nat → Option (List Value)
  | [] => some []
  | code :: codes => do
    let stop := start + Value.sizeOfCode code
    if data.size < stop then none
    else return .ofBytes code (data.extract start stop) :: (← values? data stop codes)

def decode? (data : ByteArray) : Option (List Value) := do
  let (head, start) ← readShort? data 0
  values? data head (← codes? data start head)

end Record

end RoutineParams.Storage
