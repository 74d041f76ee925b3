import RoutineParams.Storage.Header
import RoutineParams.Storage.Image
import RoutineParams.Storage.Reader

/-!
# Writing database files

The bytes of an image: the header, the trees, whose pages but the first take any numbers that are
left, and the list of the pages that are free.

    im.toBytes                        the bytes of a file with the image `im`
-/

namespace RoutineParams.Storage

/-- A file that is being written: the numbers of pages that are left, and the pages that are
done. -/
structure Writing where
  left : List Nat
  pages : List (Nat × ByteArray)

abbrev PageWriter (α : Type) := StateM Writing α

namespace PageWriter

/-- Takes the number of a page; 0 if none is left. -/
def takeNumber : PageWriter Nat := do
  let w ← get
  set { w with left := w.left.tail }
  return w.left.headD 0

/-- Writes a page, as far as its bytes go; the rest is zero. -/
def put (f : PageFormat) (number : Nat) (data : ByteArray) : PageWriter Unit :=
  modify fun w => { w with pages := (number, f.fill data) :: w.pages }

end PageWriter

namespace TreeFormat

/-- Writes the rest of a payload, from a place on, on pages of its own, and gives the first of
them. -/
def writeSpill (f : TreeFormat) (payload : ByteArray) : (fuel start : Nat) → PageWriter Nat
  | 0, _ => return 0
  | fuel + 1, start => do
    if payload.size ≤ start then return 0
    else
      let number ← PageWriter.takeNumber
      let next ← f.writeSpill payload fuel (start + f.spillRoom)
      PageWriter.put f.page number
        (⟨(bytesOf 4 next).toArray⟩ ++ payload.extract start (start + f.spillRoom))
      return number

/-- The bytes of an entry on a page, which follow `head`. -/
def entryBytes (f : TreeFormat) (isLeaf : Bool) (head : List UInt8) (e : Entry) :
    PageWriter ByteArray := do
  let payload := e.payload
  let rowid := shortBytes (unsigned e.rowid)
  let share := f.share payload.size
  let spill ← f.writeSpill payload (payload.size + 1) share
  let body := payload.extract 0 share ++
    ⟨(if share < payload.size then bytesOf 4 spill else []).toArray⟩
  let size := shortBytes payload.size
  match f.kind, isLeaf with
  | .table, false => return ⟨(head ++ rowid).toArray⟩
  | .table, true => return ⟨(head ++ size ++ rowid).toArray⟩ ++ body
  | .index, _ => return ⟨(head ++ size).toArray⟩ ++ body

/-- The places of entries of these sizes, which lie one before the other up to `stop`. -/
def places (stop : Nat) : List Nat → List Nat
  | [] => []
  | size :: sizes => (stop - size) :: places (stop - size) sizes

/-- The bytes of a page with entries, and with the number of the last page below it unless it is a
leaf. The first page of a file keeps room for the header. -/
def pageBytes (f : TreeFormat) (number : Nat) (last : Option Nat) (entries : List ByteArray) :
    ByteArray :=
  let entries := entries.map fun e => e ++ ⟨(List.replicate (4 - e.size) 0).toArray⟩
  let places := places f.page.usable (entries.map ByteArray.size)
  let header := if number = Image.listingRoot then headerLength else 0
  let start := places.getLast?.getD f.page.usable
  let front := List.replicate header 0 ++ [PagedFile.pageMark f.kind last.isNone, 0, 0] ++
    bytesOf 2 entries.length ++ bytesOf 2 start ++ [0] ++
    (last.elim [] (bytesOf 4)) ++ places.flatMap (bytesOf 2)
  let gap := List.replicate (start - front.length) 0
  ⟨(front ++ gap).toArray⟩ ++ entries.reverse.foldl (· ++ ·) .empty

mutual

def writeTree (f : TreeFormat) (number : Nat) : Tree → PageWriter Unit
  | .leaf entries => do
    let entries ← entries.mapM (f.entryBytes true [])
    PageWriter.put f.page number (f.pageBytes number none entries)
  | .branch below => do
    let (entries, last) ← f.writeBranches below
    PageWriter.put f.page number (f.pageBytes number (some last) entries)

/-- Writes the pages below a page. Gives the entries between them, with the numbers of the pages
before, and the number of the last one. -/
def writeBranches (f : TreeFormat) : Branches → PageWriter (List ByteArray × Nat)
  | .last page => do
    let number ← PageWriter.takeNumber
    f.writeTree number page
    return ([], number)
  | .cons page divider rest => do
    let number ← PageWriter.takeNumber
    f.writeTree number page
    let e ← f.entryBytes false (bytesOf 4 number) divider
    let (entries, last) ← f.writeBranches rest
    return (e :: entries, last)

end

end TreeFormat

/-! ## Files -/

/-- Writes the list of free pages, each page of which holds up to `room` numbers of others, and
gives its first page. -/
def writeFree (f : PageFormat) (room : Nat) : (fuel : Nat) → List Nat → PageWriter Nat
  | 0, _ | _, [] => return 0
  | fuel + 1, trunk :: free => do
    let listed := free.take room
    let next ← writeFree f room fuel (free.drop room)
    PageWriter.put f trunk
      ⟨(bytesOf 4 next ++ bytesOf 4 listed.length ++ listed.flatMap (bytesOf 4)).toArray⟩
    listed.forM fun number => PageWriter.put f number .empty
    return trunk

/-- The header of a file, whose free pages are listed from a page on. -/
def Image.header (im : Image) (free : Nat) : ByteArray :=
  let version : List UInt8 := if im.logged then [2, 2] else [1, 1]
  let size := bytesOf 2 (if im.page.size = 65536 then 1 else im.page.size)
  formatName ++ ⟨(size ++ version ++ [UInt8.ofNat im.page.reserved, 64, 32, 32] ++ bytesOf 4 1 ++
    bytesOf 4 im.counts.total ++ bytesOf 4 free ++ bytesOf 4 im.counts.free ++ bytesOf 4 1 ++
    bytesOf 4 4 ++ bytesOf 4 0 ++ bytesOf 4 0 ++ bytesOf 4 im.encoding ++ List.replicate 32 0 ++
    bytesOf 4 1 ++ bytesOf 4 formatVersion).toArray⟩

def Image.toBytes (im : Image) : ByteArray :=
  let roots := im.trees.map (·.1)
  let left := (List.range (im.counts.total + 1)).filter fun n => 0 < n && !roots.contains n
  let write : PageWriter Nat := do
    im.trees.forM fun (root, t) => (im.formatAt root t.kind).writeTree root t.tree
    let free := (← get).left
    writeFree im.page (im.page.usable / 4 - 8) (free.length + 1) free
  let (free, w) := write.run ⟨left, []⟩
  let pages := w.pages.mergeSort fun a b => a.1 ≤ b.1
  let data := pages.foldl (fun data p => data ++ p.2) ByteArray.empty
  im.header free ++ data.extract headerLength data.size

end RoutineParams.Storage
