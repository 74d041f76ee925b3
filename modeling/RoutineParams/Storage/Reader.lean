import RoutineParams.Storage.Header
import RoutineParams.Storage.Image

/-!
# Reading database files

An image is read from the bytes of a file: its header, the tree that lists the others, and those.
Every page is read once at most; a file in which one would be read twice is malformed.

    Image.ofBytes b                   the image in a file with the bytes `b`
-/

namespace RoutineParams.Storage

/-- What reads pages: how many more it may read is its state. -/
abbrev PageReader (α : Type) := StateT Nat (Except Fault) α

structure PagedFile where
  data : ByteArray
  page : PageFormat
  count : Nat

def maxLevels : Nat := 20

/-- What there must be in a sound file. -/
def require {α : Type} : Option α → PageReader α
  | some a => pure a
  | none => throw .malformed

namespace PagedFile

/-- The page with a number. What a file lacks of its last page is zero. -/
def read (p : PagedFile) (number : Nat) : PageReader ByteArray := do
  let left ← get
  if left = 0 ∨ number = 0 ∨ p.count < number then throw .malformed
  else
    set (left - 1)
    return p.page.fill (p.data.extract ((number - 1) * p.page.size) (number * p.page.size))

/-- The bytes of a payload that lie on further pages, `size` of them, from the page `next` on. -/
def readSpill (p : PagedFile) : (fuel next size : Nat) → PageReader ByteArray
  | 0, _, _ => throw .malformed
  | fuel + 1, next, size => do
    let data ← p.read next
    let room := p.page.usable - 4
    if size ≤ room then return data.extract 4 (4 + size)
    else
      let following ← require (numberAt? data 0 4)
      return data.extract 4 (4 + room) ++ (← p.readSpill fuel following (size - room))

/-- The payload of an entry whose share of it starts at a place of a page. -/
def readPayload (p : PagedFile) (f : TreeFormat) (data : ByteArray) (start size : Nat) :
    PageReader ByteArray := do
  let share := f.share size
  if data.size < start + share then throw .malformed
  else
    let own := data.extract start (start + share)
    if share < size then
      let next ← require (numberAt? data (start + share) 4)
      return own ++ (← p.readSpill p.count next (size - share))
    else return own

/-- The entry at a place of a page, after the number of the page before it. -/
def readEntry (p : PagedFile) (f : TreeFormat) (isLeaf : Bool) (data : ByteArray) (start : Nat) :
    PageReader Entry := do
  match f.kind, isLeaf with
  | .table, false =>
    let (rowid, _) ← require (readShort? data start)
    return ⟨[.int (Int64.ofNat rowid)], .empty⟩
  | .table, true =>
    let (size, start) ← require (readShort? data start)
    let (rowid, start) ← require (readShort? data start)
    return ⟨[.int (Int64.ofNat rowid)], ← p.readPayload f data start size⟩
  | .index, _ =>
    let (size, start) ← require (readShort? data start)
    let payload ← p.readPayload f data start size
    return ⟨← require (Record.decode? payload), payload⟩

/-- The marks of the pages of a tree: those with pages below them, and leaves. -/
def pageMark (kind : TreeKind) (isLeaf : Bool) : UInt8 :=
  match kind, isLeaf with
  | .table, true => 13
  | .table, false => 5
  | .index, true => 10
  | .index, false => 2

/-- The tree at a page, of no more than some levels. -/
def readTree (p : PagedFile) (kind : TreeKind) (levels number : Nat) : PageReader Tree := do
  match levels with
  | 0 => throw .malformed
  | levels + 1 =>
    let f : TreeFormat := ⟨p.page, kind, 0⟩
    let data ← p.read number
    let start := if number = Image.listingRoot then headerLength else 0
    let mark ← require data[start]?
    let count ← require (numberAt? data (start + 3) 2)
    let place (list i : Nat) : PageReader Nat := require (numberAt? data (start + list + 2 * i) 2)
    if mark = pageMark kind true then
      return .leaf (← (List.range count).mapM fun i => do
        p.readEntry f true data (← place 8 i))
    else if mark = pageMark kind false then
      let pairs ← (List.range count).mapM fun i => do
        let offset ← place 12 i
        let page ← p.readTree kind levels (← require (numberAt? data offset 4))
        return (page, ← p.readEntry f false data (offset + 4))
      let last ← p.readTree kind levels (← require (numberAt? data (start + 8) 4))
      return .branch (.ofPairs pairs last)
    else throw .malformed
termination_by structural levels

def readStored (p : PagedFile) (root : Nat) : PageReader StoredTree := do
  let mark := p.data[(root - 1) * p.page.size]?
  let kind : TreeKind :=
    if mark = some (pageMark .index true) ∨ mark = some (pageMark .index false) then .index
    else .table
  return ⟨kind, ← p.readTree kind maxLevels root⟩

def readImage (p : PagedFile) (h : Header) (logged : Bool) : PageReader Image := do
  let listing ← p.readTree .table maxLevels Image.listingRoot
  let im : Image :=
    ⟨p.page, h.encoding, logged, ⟨p.count, h.freeCount⟩, [(Image.listingRoot, ⟨.table, listing⟩)]⟩
  let roots := (im.listings.map Listing.root).filter (0 < ·)
  let trees ← roots.mapM fun root => do return (root, ← p.readStored root)
  return { im with trees := im.trees ++ trees }

end PagedFile

/-- The image in a file with a header, which is no part of the first page. -/
def Image.ofBytes (data : ByteArray) (h : Header) : Except Fault Image := do
  let p : PagedFile := ⟨Header.drop data, h.page, h.pageCount⟩
  let (im, _) ← (p.readImage h (Header.isLogged data)).run h.pageCount
  return im

end RoutineParams.Storage
