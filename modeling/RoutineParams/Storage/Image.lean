import RoutineParams.Storage.Affinity
import RoutineParams.Storage.Schema
import RoutineParams.Storage.Update

/-!
# Images

What a database file holds page by page: the trees of its tables and indexes by their first pages,
and how many pages there are. The tree at the first page of the file lists the others.

    im.size                           the size of the file
    im.table? name                    the table with a name
    im.rows t                         the rows of a table
    im.putRow t vs                    puts in the row `vs`, in place of those with its keys
    im.dropRow t via r                takes out a row
-/

namespace RoutineParams.Storage

structure StoredTree where
  kind : TreeKind
  tree : Tree

/-- What a database file holds. Its texts are read as UTF-8, whatever their encoding is said to
be. -/
structure Image where
  page : PageFormat
  /-- The number of the encoding of texts. -/
  encoding : Nat
  /-- Whether changes are first written to a log beside the file. -/
  logged : Bool
  counts : PageCounts
  trees : List (Nat × StoredTree)

/-- What a file lists of a table or an index. -/
structure Listing where
  kind : String
  name : String
  table : String
  root : Nat
  command : String

/-- An index of a table; the columns are told by their places. -/
structure StoredIndex where
  root : Nat
  places : List Nat
  isUnique : Bool

structure StoredTable where
  name : String
  root : Nat
  form : TableForm
  indexes : List StoredIndex

/-- A row of a table: its number, which means nothing if rows have none, and a value for each
column. -/
structure Row where
  number : Int64
  values : List Value

def pick (places : List Nat) (values : List Value) : List Value :=
  places.map fun i => values.getD i .null

/-! ## Rows as entries -/

namespace StoredTable

def kind (t : StoredTable) : TreeKind := if t.form.order?.isSome then .index else .table

/-- The places of the columns in the order in which the values of a row are stored. -/
def storedPlaces (t : StoredTable) : List Nat :=
  let first := t.form.order?.getD []
  first ++ (List.range t.form.columns.length).filter fun i => !first.contains i

/-- The entry of the table for a row. The column that holds the number is null there. -/
def entry (t : StoredTable) (r : Row) : Entry :=
  let stored := t.storedPlaces.map fun i =>
    if t.form.numbers? = some i then .null else r.values.getD i .null
  if t.form.order?.isSome then .index stored else .row r.number stored

/-- The row that an entry of the table is for. Columns that it lacks have their standard values. -/
def rowOf (t : StoredTable) (e : Entry) : Row :=
  let stored := if t.form.order?.isSome then e.key else e.record
  let value (c : Column) (i : Nat) : Value :=
    if t.form.numbers? = some i then .int e.rowid
    else (stored[t.storedPlaces.idxOf i]?).getD (c.affinity.convert c.default)
  ⟨e.rowid, t.form.columns.zipIdx.map fun (c, i) => value c i⟩

/-- A row with a number: the one among its values, or else the next one. -/
def numbered (t : StoredTable) (next : Int64) (values : List Value) : Row :=
  match t.form.numbers? with
  | none => ⟨next, values⟩
  | some i =>
    match values.getD i .null with
    | .int n => ⟨n, values⟩
    | _ => ⟨next, values.set i (.int next)⟩

/-- The leading values of a row, which tell it from all others of the table: its tree is in the
order of these. -/
def lead (t : StoredTable) (r : Row) : List Value :=
  match t.form.order? with
  | none => [.int r.number]
  | some places => pick places r.values

/-- The places of the columns whose values end the entries of an index, after those of its own. -/
def restPlaces (t : StoredTable) (x : StoredIndex) : List Nat :=
  (t.form.order?.getD []).filter fun i => !x.places.contains i

def indexEntry (t : StoredTable) (x : StoredIndex) (r : Row) : Entry :=
  let rest := if t.form.order?.isSome then pick (t.restPlaces x) r.values else [.int r.number]
  .index (pick x.places r.values ++ rest)

/-- The leading values of the row of an entry of an index. -/
def leadOf (t : StoredTable) (x : StoredIndex) (e : Entry) : List Value :=
  match t.form.order? with
  | none => [e.key.getLast?.getD .null]
  | some places =>
    let held := x.places ++ t.restPlaces x
    places.map fun i => e.key.getD (held.idxOf i) .null

end StoredTable

namespace Image

/-- The first page of a file, where its tables are listed. -/
def listingRoot : Nat := 1

/-- What the first page of a file holds besides its entries. -/
def headerSize : Nat := 100

/-- A file in which nothing is listed. -/
def fresh (logged : Bool) : Image :=
  ⟨.standard, utf8Encoding, logged, ⟨1, 0⟩, [(listingRoot, ⟨.table, .empty⟩)]⟩

/-- Whether texts are in UTF-8, as they are where nothing is said. -/
def hasUtf8 (im : Image) : Bool := im.encoding % 4 ≤ utf8Encoding

def size (im : Image) : Nat := im.page.size * im.counts.total

def tree (im : Image) (root : Nat) : Tree :=
  ((im.trees.lookup root).map StoredTree.tree).getD .empty

def formatAt (im : Image) (root : Nat) (kind : TreeKind) : TreeFormat :=
  ⟨im.page, kind, if root = listingRoot then headerSize else 0⟩

/-- Changes the tree at a page. -/
def change (im : Image) (root : Nat) (inOrder : Bool)
    (f : Changing → Tree → StateM PageCounts Tree) : Image :=
  match im.trees.lookup root with
  | none => im
  | some t =>
    let (tree, counts) := (f ⟨im.formatAt root t.kind, inOrder⟩ t.tree).run im.counts
    { im with
      counts
      trees := im.trees.map fun x => if x.1 = root then (root, { t with tree }) else x }

def insert (im : Image) (root : Nat) (e : Entry) : Image :=
  im.change root false fun c t => t.insert c e

def erase (im : Image) (root : Nat) (key : List Value) : Image :=
  im.change root false fun c t => t.erase c key

/-- The lowest page from `n` on at which no tree starts. -/
def freeRoot (im : Image) : (fuel n : Nat) → Nat
  | 0, n => n
  | fuel + 1, n => if (im.trees.lookup n).isSome then im.freeRoot fuel (n + 1) else n

/-- Adds a tree without entries, and gives its first page. -/
def addTree (im : Image) (kind : TreeKind) : Nat × Image :=
  let counts := im.counts.take 1
  let root :=
    if im.counts.free = 0 then counts.total else im.freeRoot im.trees.length (listingRoot + 1)
  (root, { im with counts, trees := im.trees ++ [(root, ⟨kind, .empty⟩)] })

/-! ## Listings -/

def listingValues (kind name table : String) (root : Nat) (command : Value) : List Value :=
  [.text kind, .text name, .text table, .int (Int64.ofNat root), command]

def listing? : List Value → Option Listing
  | [.text kind, .text name, .text table, .int root, command] =>
    some ⟨kind, name, table, root.toInt.toNat,
      match command with | .text s => s | _ => ""⟩
  | _ => none

def listings (im : Image) : List Listing :=
  ((im.tree listingRoot).entries .table).filterMap fun e => listing? e.record

/-- Adds a row to the table at a page, under the next number, and gives that. -/
def append (im : Image) (root : Nat) (values : List Value) : Int64 × Image :=
  let rowid := (im.tree root).lastRowid + 1
  (rowid, im.insert root (.row rowid values))

/-- Makes a table and its key. Its own listing is written last, over one without values. -/
def makeTable (im : Image) (s : TableSchema) : Image :=
  let (root, im) := im.addTree .table
  let (rowid, im) := im.append listingRoot (List.replicate 5 .null)
  let (keyRoot, im) := im.addTree .index
  let (_, im) := im.append listingRoot (listingValues "index" s.keyName s.name keyRoot .null)
  im.insert listingRoot
    (.row rowid (listingValues "table" s.name s.name root (.text s.command)))

/-! ## Tables -/

/-- The number at the end of the name of an index that keeps a key. -/
def keyNumber? (name : String) : Option Nat :=
  String.toNat? (String.ofList (name.toList.reverse.takeWhile Char.isDigit).reverse)

/-- The index that a listing is for, of a table of some form. The command of an index that keeps a
key is not listed; its name tells which key it is. -/
def indexOf? (f : TableForm) (l : Listing) : Option StoredIndex :=
  if l.command = "" then do
    let n ← keyNumber? l.name
    return ⟨l.root, ← f.keys[n - 1]?, true⟩
  else
    let (columns, isUnique) := indexedOf l.command
    some ⟨l.root, columns.filterMap f.place?, isUnique⟩

/-- The table with a name, and its indexes, the last one listed first. -/
def table? (im : Image) (name : String) : Option StoredTable := do
  let l ← im.listings.find? fun l => l.kind == "table" && sameName l.name name
  let form := TableForm.ofCommand l.command
  let indexes := im.listings.filter fun x => x.kind == "index" && sameName x.table name
  return ⟨l.name, l.root, form, (indexes.filterMap (indexOf? form)).reverse⟩

/-! ## Rows -/

def rows (im : Image) (t : StoredTable) : List Row :=
  ((im.tree t.root).entries t.kind).map t.rowOf

/-- The entry of a table for the row with some leading values. -/
def entryAt? (im : Image) (t : StoredTable) (lead : List Value) : Option Entry :=
  (im.tree t.root).search t.kind fun e => cmpValues (e.key.take lead.length) lead

def rowAt? (im : Image) (t : StoredTable) (lead : List Value) : Option Row :=
  (im.entryAt? t lead).map t.rowOf

/-- The row of an entry of an index. -/
def rowOf? (im : Image) (t : StoredTable) (x : StoredIndex) (e : Entry) : Option Row :=
  im.rowAt? t (t.leadOf x e)

/-- The row that shares the values of a unique index with a row. Nothing is shared with a null
value. -/
def sharing? (im : Image) (t : StoredTable) (x : StoredIndex) (values : List Value) : Option Row :=
  let key := pick x.places values
  if ¬x.isUnique ∨ key.any Value.isNull then none
  else do
    let e ← (im.tree x.root).search .index fun e => cmpValues (e.key.take key.length) key
    im.rowOf? t x e

/-- Takes out a row of a table. From the index at `via`, through which it was found, it is taken out
last. -/
def dropRow (im : Image) (t : StoredTable) (via : Option Nat) (r : Row) : Image :=
  let drop (im : Image) (x : StoredIndex) : Image := im.erase x.root (t.indexEntry x r).key
  let (last, first) := t.indexes.partition fun x => some x.root == via
  let im := first.foldl drop im
  let im := (im.entryAt? t (t.lead r)).elim im fun e => im.erase t.root e.key
  last.foldl drop im

/-- Puts a row into a table, in place of those that have its number or share a key with it. -/
def putRow (im : Image) (t : StoredTable) (values : List Value) : Image :=
  let next := (im.tree t.root).lastRowid + 1
  let r := t.numbered next values
  let im := (im.rowAt? t (t.lead r)).elim im (im.dropRow t none)
  let im := t.indexes.foldl
    (fun im x => (im.sharing? t x r.values).elim im (im.dropRow t (some x.root))) im
  let im := t.indexes.foldl (fun im x => im.insert x.root (t.indexEntry x r)) im
  im.insert t.root (t.entry r)

/-- Takes out the rows of a table with a value at a place. They are found through a unique index
that starts with that place, if there is one. -/
def dropRows (im : Image) (t : StoredTable) (place : Nat) (v : Value) : Image :=
  match t.indexes.find? fun x => x.isUnique && x.places.head? == some place with
  | some x =>
    let entries := (im.tree x.root).entries .index
    (entries.filter fun e => cmpValues (e.key.take 1) [v] == .eq).foldl
      (fun im e => (im.rowOf? t x e).elim im (im.dropRow t (some x.root))) im
  | none =>
    ((im.rows t).filter fun r => (r.values.getD place .null).cmp v == .eq).foldl
      (fun im r => im.dropRow t none r) im

/-- Whether an index of a table has the entries of its rows, in order, and no others. -/
def keepsIndex (im : Image) (t : StoredTable) (x : StoredIndex) : Bool :=
  let entries := (im.tree x.root).entries .index
  let sorted := ((im.rows t).map (t.indexEntry x)).mergeSort fun a b => (a.cmp b).isLE
  entries.length == sorted.length && (entries.zip sorted).all fun (a, b) => a.cmp b == .eq

/-- Makes the index of a table, with an entry for each row, in order. -/
def makeIndex (im : Image) (s : TableSchema) : Image :=
  let (root, im) := im.addTree .index
  let (_, im) := im.append listingRoot
    (listingValues "index" s.indexName s.name root (.text s.indexCommand))
  match im.table? s.name with
  | none => im
  | some t =>
    let x : StoredIndex := ⟨root, s.indexed.filterMap t.form.place?, false⟩
    let sorted := ((im.rows t).map (t.indexEntry x)).mergeSort fun a b => (a.cmp b).isLE
    sorted.foldl (fun im e => im.change root true fun c t => t.insert c e) im

end Image

end RoutineParams.Storage
