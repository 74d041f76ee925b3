import RoutineParams.Storage.Number
import RoutineParams.Storage.Page

/-!
# Logs

A log beside a database file holds pages that are newer than those of the file. It starts with a
header, and each page follows a header of its own, which may say that a change is complete and how
many pages the file has then. A running checksum ends the log where it is broken; what follows the
last complete change does not count.

    Log.apply log data                the file `data` with the changes in `log`
-/

namespace RoutineParams.Storage.Log

/-- A running checksum: two sums of 32-bit numbers. -/
structure Checksum where
  first : UInt32
  second : UInt32
deriving DecidableEq, Repr

def headerLength : Nat := 32

def pageHeaderLength : Nat := 24

/-- The number in four bytes at a place. What a log lacks of it is zero. -/
def word (log : ByteArray) (i : Nat) : Nat := (numberAt? log i 4).getD 0

/-- The number in four bytes at a place as the checksum takes it, in the order of the log. -/
def summand (isBig : Bool) (log : ByteArray) (i : Nat) : UInt32 :=
  let bytes := (log.extract i (i + 4)).toList
  UInt32.ofNat (numberOf (if isBig then bytes else bytes.reverse))

/-- A checksum run on over `count` pairs of numbers from a place. -/
def Checksum.over (isBig : Bool) (log : ByteArray) (start : Nat) :
    (count : Nat) → Checksum → Checksum
  | 0, s => s
  | count + 1, s =>
    let first := s.first + summand isBig log start + s.second
    let second := s.second + summand isBig log (start + 4) + first
    Checksum.over isBig log (start + 8) count ⟨first, second⟩

/-- The checksum that is written at a place. -/
def Checksum.at (log : ByteArray) (i : Nat) : Checksum :=
  ⟨UInt32.ofNat (word log i), UInt32.ofNat (word log (i + 4))⟩

/-- What a log holds up to its last complete change: pages by their numbers, the newest first, and
how many pages the file has. -/
structure Changes where
  pages : List (Nat × ByteArray)
  count : Nat

structure Header where
  page : PageFormat
  isBig : Bool
  checksum : Checksum

def header? (log : ByteArray) : Option Header :=
  let mark := word log 0
  let isBig := mark % 2 == 1
  let page : PageFormat := ⟨word log 8, 0⟩
  let checksum := Checksum.over isBig log 0 3 ⟨0, 0⟩
  let isSound := mark / 2 = 0x377f0682 / 2 ∧ PageFormat.sizes.contains page.size ∧
    checksum = .at log 24
  if headerLength ≤ log.size ∧ isSound then some ⟨page, isBig, checksum⟩ else none

/-- Reads pages from a place on, where `pages` are read and `complete` is what holds without those
after the last complete change. There are at most `fuel` of them. -/
def readPages (log : ByteArray) (h : Header) :
    (fuel start : Nat) → (pages : List (Nat × ByteArray)) → (complete : Option Changes) →
      Checksum → Option Changes
  | 0, _, _, complete, _ => complete
  | fuel + 1, start, pages, complete, s =>
    let stop := start + pageHeaderLength + h.page.size
    let s := Checksum.over h.isBig log start 1 s
    let s := Checksum.over h.isBig log (start + pageHeaderLength) (h.page.size / 8) s
    let number := word log start
    let isSound := stop ≤ log.size && number != 0 && s == .at log (start + 16) &&
      (log.extract (start + 8) (start + 16)).data == (log.extract 16 24).data
    if isSound then
      let pages := (number, log.extract (start + pageHeaderLength) stop) :: pages
      let count := word log (start + 4)
      readPages log h fuel stop pages (if count = 0 then complete else some ⟨pages, count⟩) s
    else complete

def changes? (log : ByteArray) : Option (Header × Changes) := do
  let h ← header? log
  return (h, ← readPages log h log.size headerLength [] none h.checksum)

/-- A file with the changes in a log. -/
def apply (log data : ByteArray) : ByteArray :=
  match changes? log with
  | none => data
  | some (h, c) =>
    (List.range c.count).foldl (fun done i =>
      let old := h.page.fill (data.extract (i * h.page.size) ((i + 1) * h.page.size))
      done ++ (c.pages.lookup (i + 1)).getD old) .empty

end RoutineParams.Storage.Log
