import RoutineParams.Storage.Balance

/-!
# Changing trees

Entries are put into a tree and taken from it at the page where they belong; then the pages on the
way up are balanced, from the bottom, up to the first one that needs no balance.
-/

namespace RoutineParams.Storage

/-- What is known of a tree while it is changed: its form, whether entries arrive in order, and
whether its root is the first page of the file. -/
structure Changing where
  format : TreeFormat
  inOrder : Bool

/-- A page that has been changed, and whether it has to be looked at on the way up. -/
structure Changed (α : Type) where
  page : α
  isOpen : Bool

/-! ## Balance on the way up -/

/-- Whether the last page of a table was overfull only by the row `e`, its last one. -/
def overfullBy (f : TreeFormat) (e : Option Entry) : Tree → Bool
  | .branch _ => false
  | .leaf entries =>
    match f.kind, entries.getLast?, e with
    | .table, some last, some e =>
      f.isOverfull false (.leaf entries) && last.rowid == e.rowid
    | _, _, _ => false

/-- Gives the last row of the last page below a page a page of its own. -/
def openPage (below : Branches) : StateM PageCounts Tree := do
  modify (PageCounts.take 1)
  let entries := leafEntries below.lastPage
  let before := entries.dropLast
  let divider := (before.getLast?.map Entry.divider).getD ⟨[], .empty⟩
  return .branch (.ofPairs (below.pairs ++ [(.leaf before, divider)])
    (.leaf (entries.drop before.length)))

/-- Balances the page `i` below a page, which has been changed by putting in `e` or by a removal. -/
def settle (c : Changing) (isRoot : Bool) (e : Option Entry) (below : Branches) (i : Nat) :
    StateM PageCounts Tree :=
  if i = below.pairs.length ∧ overfullBy c.format e below.lastPage ∧
      ¬(isRoot ∧ 0 < c.format.rootHeader) then
    openPage below
  else rebalance c.format c.inOrder isRoot below i

/-- Ends a change of the page `i` below a page: balances it if that is needed. -/
def closePage (c : Changing) (isRoot : Bool) (e : Option Entry) (below : Branches) (i : Nat)
    (isOpen : Bool) : StateM PageCounts (Changed Tree) := do
  let page := (below.pages[i]?).getD .empty
  if isOpen && c.format.isUnbalanced page then
    return ⟨← settle c isRoot e below i, true⟩
  else return ⟨.branch below, false⟩

/-- Ends a change of the root: what does not fit there goes to a page below. -/
def closeRoot (c : Changing) (e : Option Entry) (root : Changed Tree) : StateM PageCounts Tree := do
  if root.isOpen && c.format.isOverfull true root.page then
    modify (PageCounts.take 1)
    settle c true e (.last root.page) 0
  else return root.page

/-! ## Putting in -/

/-- Puts an entry among others in order, in place of one with its key. -/
def putEntry (e : Entry) : List Entry → List Entry
  | [] => [e]
  | x :: xs =>
    match e.cmp x with
    | .lt => e :: x :: xs
    | .eq => e :: xs
    | .gt => x :: putEntry e xs

mutual

def Tree.put (c : Changing) (isRoot : Bool) (e : Entry) : Tree → StateM PageCounts (Changed Tree)
  | .leaf entries =>
    let page := .leaf (putEntry e entries)
    return ⟨page, c.format.isOverfull isRoot page⟩
  | .branch below => do
    let (changed, i) ← below.put c e
    closePage c isRoot (some e) changed.page i changed.isOpen

/-- Puts an entry into one of the pages below a page, and gives the number of that. -/
def Branches.put (c : Changing) (e : Entry) :
    Branches → StateM PageCounts (Changed Branches × Nat)
  | .last page => do
    let changed ← page.put c false e
    return (⟨.last changed.page, changed.isOpen⟩, 0)
  | .cons page divider rest => do
    if divider.cmp e = .lt then
      let (changed, i) ← rest.put c e
      return (⟨.cons page divider changed.page, changed.isOpen⟩, i + 1)
    else
      let changed ← page.put c false e
      return (⟨.cons changed.page divider rest, changed.isOpen⟩, 0)

end

/-- A tree with an entry put in, in place of one with its key. -/
def Tree.insert (c : Changing) (e : Entry) (t : Tree) : StateM PageCounts Tree := do
  modify (PageCounts.take (c.format.spillCount e.payload.size))
  closeRoot c (some e) (← t.put c true e)

/-! ## Taking out -/

mutual

def Tree.takeLast (c : Changing) : Tree → StateM PageCounts (Changed Tree × Option Entry)
  | .leaf entries => return (⟨.leaf entries.dropLast, true⟩, entries.getLast?)
  | .branch below => do
    let (changed, e) ← below.takeLast c
    return (← closePage c false none changed.page below.pairs.length changed.isOpen, e)

/-- Takes the last entry out of the leaves below a page. -/
def Branches.takeLast (c : Changing) :
    Branches → StateM PageCounts (Changed Branches × Option Entry)
  | .last page => do
    let (changed, e) ← page.takeLast c
    return (⟨.last changed.page, changed.isOpen⟩, e)
  | .cons page divider rest => do
    let (changed, e) ← rest.takeLast c
    return (⟨.cons page divider changed.page, changed.isOpen⟩, e)

end

/-- Frees the pages to which an entry goes on. -/
def freeSpill (c : Changing) (e : Entry) : StateM PageCounts Unit :=
  modify (PageCounts.give (c.format.spillCount e.payload.size))

/-- What became of the pages below a page when an entry was taken out: the page where that happened,
and whether the entry stood between pages. -/
structure Removal where
  below : Branches
  page : Nat
  isOpen : Bool
  wasDivider : Bool

mutual

/-- Takes the entry with a key out of a page or one below it. -/
def Tree.remove (c : Changing) (isRoot : Bool) (key : List Value) :
    Tree → StateM PageCounts (Changed Tree)
  | .leaf entries => do
    (entries.filter fun e => cmpValues e.key key == .eq).forM (freeSpill c)
    return ⟨.leaf (entries.filter fun e => cmpValues e.key key != .eq), true⟩
  | .branch below => do
    let r ← below.remove c key
    let changed ← closePage c isRoot none r.below r.page r.isOpen
    return { changed with isOpen := changed.isOpen || r.wasDivider }

/-- Takes the entry with a key out of the pages below a page. The last entry before it takes the
place of one that stands between pages. -/
def Branches.remove (c : Changing) (key : List Value) : Branches → StateM PageCounts Removal
  | .last page => do
    let changed ← page.remove c false key
    return ⟨.last changed.page, 0, changed.isOpen, false⟩
  | .cons page divider rest => do
    match c.format.kind, cmpValues divider.key key with
    | _, .lt =>
      let r ← rest.remove c key
      return { r with below := .cons page divider r.below, page := r.page + 1 }
    | .index, .eq =>
      freeSpill c divider
      let (changed, e) ← page.takeLast c
      return ⟨.cons changed.page (e.getD divider) rest, 0, changed.isOpen, true⟩
    | _, _ =>
      let changed ← page.remove c false key
      return ⟨.cons changed.page divider rest, 0, changed.isOpen, false⟩

end

/-- A tree with the entry of a key taken out. -/
def Tree.erase (c : Changing) (key : List Value) (t : Tree) : StateM PageCounts Tree := do
  closeRoot c none (← t.remove c true key)

end RoutineParams.Storage
