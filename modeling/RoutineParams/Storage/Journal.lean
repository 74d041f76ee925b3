import RoutineParams.Storage.Number
import RoutineParams.Storage.Page

/-!
# Journals

A journal beside a database file holds pages as they were before a change that was left half done.
It has parts, each with a header that tells how many pages follow. The first header tells also how
many pages the file had, the size of pages, and that of sectors, at whose bounds headers lie. A page
follows its number, and a checksum over some of its bytes follows the page. What is unsound ends the
journal.

    Journal.restore size journal data      the file `data` with the pages in `journal`, of `size`
                                           bytes each if the journal does not say
-/

namespace RoutineParams.Storage.Journal

/-- What every header starts with. -/
def mark : List UInt8 := [0xd9, 0xd5, 0x05, 0xf9, 0x20, 0xa1, 0x63, 0xd7]

/-- The number in four bytes at a place. What a journal lacks of it is zero. -/
def word (journal : ByteArray) (i : Nat) : Nat := (numberAt? journal i 4).getD 0

/-- Whether a header can start at a place. -/
def hasMark (journal : ByteArray) (start : Nat) : Bool :=
  (journal.extract start (start + mark.length)).toList == mark

structure Format where
  pageSize : Nat
  sectorSize : Nat
  /-- How many pages the file had. -/
  count : Nat

/-- The least size of a journal that has a header. -/
def leastSize : Nat := 512

/-- What the first header says, if it is sound. -/
def format? (size : Nat) (journal : ByteArray) : Option Format :=
  let stated := word journal 24
  let f : Format := ⟨if stated = 0 then size else stated, word journal 20, word journal 16⟩
  let isSound := hasMark journal 0 && PageFormat.sizes.contains f.pageSize &&
    ([32, 64, 128, 256] ++ PageFormat.sizes).contains f.sectorSize
  if leastSize ≤ journal.size ∧ isSound then some f else none

/-- The number of the page that is never used, where files are locked. -/
def Format.lockedPage (f : Format) : Nat := 0x40000000 / f.pageSize + 1

/-- The checksum of the page at a place: every 200th byte from its end on, and what its header
says. -/
def checksum (f : Format) (journal : ByteArray) (start seed : Nat) : Nat :=
  let places := (List.range (f.pageSize / 200 + 1)).filterMap fun k =>
    if 200 * (k + 1) < f.pageSize then some (f.pageSize - 200 * (k + 1)) else none
  places.foldl (fun sum i => sum + (journal[start + i]?.getD 0).toNat) seed % Nat.pow 2 32

/-- Writes a page of a file. What the file lacks before it is zero. -/
def putPage (f : Format) (number : Nat) (page data : ByteArray) : ByteArray :=
  let place := (number - 1) * f.pageSize
  let before := data.extract 0 place
  before ++ ⟨(List.replicate (place - before.size) 0).toArray⟩ ++ page ++
    data.extract (place + f.pageSize) data.size

/-- Restores the pages of a part, from a place on, `count` of them. Gives the place after them,
unless the journal ends there. -/
def restorePages (f : Format) (journal : ByteArray) (seed : Nat) :
    (count start : Nat) → ByteArray → ByteArray × Option Nat
  | 0, start, data => (data, some start)
  | count + 1, start, data =>
    let number := word journal start
    let pageEnd := start + 4 + f.pageSize
    if journal.size < pageEnd ∨ number = 0 ∨ number = f.lockedPage then (data, none)
    else if f.count < number then restorePages f journal seed count (pageEnd + 4) data
    else if journal.size < pageEnd + 4 ∨
        checksum f journal (start + 4) seed ≠ word journal pageEnd then (data, none)
    else
      restorePages f journal seed count (pageEnd + 4)
        (putPage f number (journal.extract (start + 4) pageEnd) data)

/-- How many pages a part has whose header starts at a place. A header may leave that open; then
they go on to the end of the journal. -/
def pageCount (f : Format) (journal : ByteArray) (start : Nat) : Nat :=
  let count := word journal (start + 8)
  if count = 0xffffffff then (journal.size - f.sectorSize) / (f.pageSize + 8) else count

/-- Restores the pages of the parts from a place on. There are at most `fuel` of them. -/
def restoreParts (f : Format) (journal : ByteArray) : (fuel start : Nat) → ByteArray → ByteArray
  | 0, _, data => data
  | fuel + 1, start, data =>
    let start := (start + f.sectorSize - 1) / f.sectorSize * f.sectorSize
    if journal.size < start + f.sectorSize ∨ ¬hasMark journal start then data
    else
      match restorePages f journal (word journal (start + 12)) (pageCount f journal start)
          (start + f.sectorSize) data with
      | (data, some next) => restoreParts f journal fuel next data
      | (data, none) => data

/-- A file with the size that it had. It may keep a part of a page more. -/
def resize (f : Format) (data : ByteArray) : ByteArray :=
  let size := f.count * f.pageSize
  if size < data.size then data.extract 0 size
  else if data.size + f.pageSize ≤ size then
    data ++ ⟨(List.replicate (size - data.size) 0).toArray⟩
  else data

/-- A file as it was before the change that a journal is for. -/
def restore (size : Nat) (journal data : ByteArray) : ByteArray :=
  match format? size journal with
  | none => data
  | some f => restoreParts f journal (journal.size + 1) 0 (resize f data)

end RoutineParams.Storage.Journal
