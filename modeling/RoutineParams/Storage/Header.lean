import RoutineParams.Storage.Fault
import RoutineParams.Storage.Number
import RoutineParams.Storage.Page

/-!
# Headers of database files

The first page of a database file starts with a header: the name of the format, the size of pages,
how the file is to be changed, and how many pages it has. A file of no more than one byte stands for
a database without pages.
-/

namespace RoutineParams.Storage

/-- The name of the format, at the start of every file. -/
def formatName : ByteArray := "SQLite format 3\x00".toByteArray

/-- The version of the format's rules that files are written by. -/
def formatVersion : Nat := 3050002

def headerLength : Nat := 100

/-- How many numbers of pages there are: a number has four bytes. -/
def maxPages : Nat := Nat.pow 2 32

/-- Whether a file stands for a database without pages. -/
def isBlankFile (data : ByteArray) : Bool := data.size ≤ 1

structure Header where
  page : PageFormat
  /-- How many pages the file has. -/
  pageCount : Nat
  freeCount : Nat
  /-- The number of the encoding of texts. -/
  encoding : Nat
deriving DecidableEq, Repr

namespace Header

/-- The byte at a place of a header. What a file lacks of it is zero. -/
def byte (data : ByteArray) (i : Nat) : Nat := (data[i]?.getD 0).toNat

/-- The number in four bytes at a place. -/
def word (data : ByteArray) (i : Nat) : Nat := (numberAt? data i 4).getD 0

/-- Whether a file is a database of a version that can be read. -/
def isKnown (data : ByteArray) : Bool :=
  (data.extract 0 16).data == formatName.data && byte data 19 ≤ 2

/-- Whether a file is of a version that can be read but not changed. -/
def isFrozen (data : ByteArray) : Bool := 2 < byte data 18

/-- Whether changes are first written to a log beside the file. -/
def isLogged (data : ByteArray) : Bool := byte data 19 == 2

def pageSize (data : ByteArray) : Nat := byte data 16 * 256 + byte data 17 * 65536

def read (data : ByteArray) : Except Fault Header :=
  let page : PageFormat := ⟨pageSize data, byte data 20⟩
  let inFile := (data.size + page.size - 1) / page.size % maxPages
  let stated := word data 28
  let isStated := stated ≠ 0 ∧ word data 24 = word data 92
  if [byte data 21, byte data 22, byte data 23] ≠ [64, 32, 32] then .error .notDatabase
  else if ¬PageFormat.sizes.contains page.size then .error .notDatabase
  else if isStated ∧ inFile < stated then .error .malformed
  else if page.usable < 480 then .error .notDatabase
  else .ok ⟨page, if isStated then stated else inFile, word data 36, word data 56⟩

/-- A file with nothing in place of its header. -/
def drop (data : ByteArray) : ByteArray :=
  ⟨(List.replicate headerLength 0).toArray⟩ ++ data.extract headerLength data.size

/-- Writes bytes over those from a place on. -/
def overwrite (data : ByteArray) (place : Nat) (bytes : List UInt8) : ByteArray :=
  data.extract 0 place ++ ⟨bytes.toArray⟩ ++ data.extract (place + bytes.length) data.size

/-- A file that says that changes are first written to a log. -/
def markLogged (data : ByteArray) (h : Header) : ByteArray :=
  let changes := bytesOf 4 (word data 24 + 1)
  let data := overwrite data 18 [2, 2]
  let data := overwrite data 24 (changes ++ bytesOf 4 h.pageCount)
  overwrite data 92 (changes ++ bytesOf 4 formatVersion)

end Header

end RoutineParams.Storage
