import RoutineParams.Storage.Page
import RoutineParams.Storage.Record

/-!
# Trees

The rows of a table and the entries of an index lie in the order of their keys on the pages of a
tree. A page is a leaf with entries, or has further pages below it with an entry between each two:
in a table the key of the last row before, in an index an entry of its own.

Only what lies on which page is told here; page numbers are given when a file is written.
-/

namespace RoutineParams.Storage

/-- An entry of a tree. In a table the key is the number of the row and the payload its record; in
an index the payload is the record of the key. -/
structure Entry where
  key : List Value
  payload : ByteArray

mutual

/-- A page and all below it. -/
inductive Tree where
  | leaf (entries : List Entry)
  | branch (below : Branches)

/-- The pages below a page, with the entries between them. -/
inductive Branches where
  | last (page : Tree)
  | cons (page : Tree) (divider : Entry) (rest : Branches)

end

def Tree.empty : Tree := .leaf []

/-- A row under its number. -/
def Entry.row (rowid : Int64) (record : List Value) : Entry := ⟨[.int rowid], Record.encode record⟩

/-- An entry that is its own key. -/
def Entry.index (record : List Value) : Entry := ⟨record, Record.encode record⟩

/-- What stands for a row between pages. -/
def Entry.divider (e : Entry) : Entry := ⟨e.key, .empty⟩

def Entry.rowid (e : Entry) : Int64 :=
  match e.key with
  | [.int n] => n
  | _ => 0

def Entry.record (e : Entry) : List Value := (Record.decode? e.payload).getD []

def Entry.cmp (a b : Entry) : Ordering := cmpValues a.key b.key

/-! ## Pages below a page -/

/-- The pages below a page but the last, each with the entry after it. -/
def Branches.pairs : Branches → List (Tree × Entry)
  | .last _ => []
  | .cons page divider rest => (page, divider) :: rest.pairs

def Branches.lastPage : Branches → Tree
  | .last page => page
  | .cons _ _ rest => rest.lastPage

/-- Pages below a page, all but the last with the entry after it. -/
def Branches.ofPairs (pairs : List (Tree × Entry)) (lastPage : Tree) : Branches :=
  pairs.foldr (fun p rest => .cons p.1 p.2 rest) (.last lastPage)

def Branches.pages (b : Branches) : List Tree := b.pairs.map (·.1) ++ [b.lastPage]

/-! ## All entries -/

mutual

/-- The entries of a tree in order: those of its leaves, and in an index those between pages. -/
def Tree.entries (kind : TreeKind) : Tree → List Entry
  | .leaf entries => entries
  | .branch below => below.entries kind

def Branches.entries (kind : TreeKind) : Branches → List Entry
  | .last page => page.entries kind
  | .cons page divider rest =>
    page.entries kind ++ (match kind with | .table => [] | .index => [divider]) ++
      rest.entries kind

end

mutual

/-- The entry of a tree for which `order`, the order of an entry and what is looked for, is equal.
Later entries do not come before earlier ones in that order. -/
def Tree.search (kind : TreeKind) (order : Entry → Ordering) : Tree → Option Entry
  | .leaf entries => entries.find? fun e => order e == .eq
  | .branch below => below.search kind order

def Branches.search (kind : TreeKind) (order : Entry → Ordering) : Branches → Option Entry
  | .last page => page.search kind order
  | .cons page divider rest =>
    match kind, order divider with
    | _, .lt => rest.search kind order
    | .index, .eq => some divider
    | _, _ => page.search kind order

end

mutual

/-- The last number of a row in a table, 0 if there is none. -/
def Tree.lastRowid : Tree → Int64
  | .leaf entries => (entries.getLast?.map Entry.rowid).getD 0
  | .branch below => below.lastRowid

def Branches.lastRowid : Branches → Int64
  | .last page => page.lastRowid
  | .cons _ _ rest => rest.lastRowid

end

/-! ## Sizes -/

namespace TreeFormat

/-- The size of an entry on a leaf of an index, or between pages less the number of the page before
it. -/
def indexSize (f : TreeFormat) (e : Entry) : Nat :=
  let payload := e.payload.size
  let share := f.share payload
  shortSize payload + share + if share < payload then 4 else 0

/-- The size of an entry, on a leaf or between pages. Where it is removed it leaves room for at
least four bytes. -/
def entrySize (f : TreeFormat) (isLeaf : Bool) (e : Entry) : Nat :=
  match f.kind, isLeaf with
  | .table, true => shortSize (unsigned e.rowid) + f.indexSize e
  | .table, false => 4 + shortSize (unsigned e.rowid)
  | .index, true => max 4 (f.indexSize e)
  | .index, false => 4 + f.indexSize e

/-- What entries take on a page, their places included. -/
def used (f : TreeFormat) (isLeaf : Bool) (entries : List Entry) : Nat :=
  entries.foldl (fun n e => n + f.entrySize isLeaf e + 2) 0

/-- What the entries of a page take. -/
def usedBy (f : TreeFormat) : Tree → Nat
  | .leaf entries => f.used true entries
  | .branch below => f.used false (below.pairs.map (·.2))

/-- The room on a page. -/
def roomOn (f : TreeFormat) (isRoot : Bool) (t : Tree) : Nat :=
  let isLeaf := match t with | .leaf _ => true | .branch _ => false
  f.room isLeaf - if isRoot then f.rootHeader else 0

/-- Whether a page holds more than it has room for. -/
def isOverfull (f : TreeFormat) (isRoot : Bool) (t : Tree) : Bool := f.roomOn isRoot t < f.usedBy t

/-- Whether a page is overfull, or more than two thirds of it are free. -/
def isUnbalanced (f : TreeFormat) (t : Tree) : Bool :=
  f.isOverfull false t || f.page.usable * 2 < (f.roomOn false t - f.usedBy t) * 3

end TreeFormat

/-! ## Page counts -/

mutual

/-- How many pages a tree takes, with those that its entries go on to. -/
def Tree.pageCount (f : TreeFormat) : Tree → Nat
  | .leaf entries => entries.foldl (fun n e => n + f.spillCount e.payload.size) 1
  | .branch below => 1 + below.pageCount f

def Branches.pageCount (f : TreeFormat) : Branches → Nat
  | .last page => page.pageCount f
  | .cons page divider rest =>
    page.pageCount f + f.spillCount divider.payload.size + rest.pageCount f

end

end RoutineParams.Storage
