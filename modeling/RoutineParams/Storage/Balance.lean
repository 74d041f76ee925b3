import RoutineParams.Storage.Tree

/-!
# Balance

When a page has become overfull or nearly empty, its entries and those of the pages beside it are
shared out anew. Pages are filled from the left as far as they go; then entries are shifted from
each page to the one on its right as long as the left one stays the fuller. Overfull roots get a
page below them, and a root with one page below it takes over what that page holds.

A new row that overfills the last page of a table gets a page of its own.
-/

namespace RoutineParams.Storage

/-! ## Page counts -/

/-- How many pages a file has, and how many of them are free. -/
structure PageCounts where
  total : Nat
  free : Nat
deriving DecidableEq, Repr

namespace PageCounts

/-- Takes pages, free ones first. -/
def take (n : Nat) (c : PageCounts) : PageCounts := ⟨c.total + (n - c.free), c.free - n⟩

def give (n : Nat) (c : PageCounts) : PageCounts := { c with free := c.free + n }

end PageCounts

/-! ## Sharing out -/

/-- Cells to share out: what each takes on a page, and whether one falls out between two pages. -/
structure Sharing where
  room : Nat
  sizes : Array Nat
  /-- How many cells stand between two pages: one, or none. -/
  between : Nat
  /-- Whether cells arrive in order, so that pages are to stay full. -/
  inOrder : Bool

namespace Sharing

def size (s : Sharing) (i : Nat) : Nat := s.sizes.getD i 0

/-- What the cells from `start` up to `stop` take. -/
def total (s : Sharing) (start stop : Nat) : Nat := (s.sizes.extract start stop).foldl (· + ·) 0

/-- The end of a page that starts at a cell and is filled as far as it goes, of which `taken` bytes
are taken up to the cell `stop`. -/
def fill (s : Sharing) (taken stop : Nat) : Nat :=
  if stop < s.sizes.size ∧ taken + s.size stop ≤ s.room then s.fill (taken + s.size stop) (stop + 1)
  else stop
termination_by s.sizes.size - stop

/-- The ends of the pages from `start` on, when each is filled as far as it goes. -/
def fillAll (s : Sharing) : (fuel start : Nat) → List Nat
  | 0, _ => []
  | fuel + 1, start =>
    let stop := s.fill 0 start
    if stop < s.sizes.size then stop :: s.fillAll fuel (stop + s.between) else [stop]

/-- The end of a page that starts at `start` and is filled up to a cell, after cells were shifted to
the page on its right, which ends at `stop`. -/
def shift (s : Sharing) (isLast : Bool) (start stop : Nat) : Nat → Nat
  | 0 => 0
  | n + 1 =>
    let left := s.total start (n + 1)
    let right := s.total (n + 1 + s.between) stop
    let added := s.size (n + s.between)
    let removed := s.size n - if isLast then 2 else 0
    if right ≠ 0 ∧ (s.inOrder ∨ left < right + added + removed) then n + 1
    else s.shift isLast start stop n

/-- The ends of pages, the last one first, after cells were shifted to the right. -/
def shiftAll (s : Sharing) (isLast : Bool) : List Nat → List Nat
  | stop :: mid :: stops =>
    let start := (stops.head?.map (· + s.between)).getD 0
    stop :: s.shiftAll false (s.shift isLast start stop mid :: stops)
  | stops => stops
termination_by stops => stops.length

/-- The ends of the pages that cells are shared out to. -/
def ends (s : Sharing) : List Nat :=
  (s.shiftAll true (s.fillAll (s.sizes.size + 1) 0).reverse).reverse

/-- Shares out cells: the pages, and the cells between them. -/
def split {α : Type} (s : Sharing) (cells : List α) : List (List α) × List α :=
  let ends := s.ends
  let starts := 0 :: ends.map (· + s.between)
  ((starts.zip ends).map fun (start, stop) => (cells.take stop).drop start,
    ends.dropLast.filterMap fun stop => if s.between = 0 then none else cells[stop]?)

end Sharing

/-! ## Neighbours -/

/-- Which pages below a page are balanced together: the first of them, and their number. -/
structure Neighbours where
  first : Nat
  count : Nat

/-- The neighbours of the page `i` below a page with `dividers` entries: itself and one on each
side, or two on one side. When entries arrive in order there are two of them. -/
def Neighbours.of (inOrder : Bool) (dividers i : Nat) : Neighbours :=
  let bulk := if inOrder then 1 else 0
  if dividers < 2 then ⟨0, dividers + 1⟩
  else ⟨if i = 0 then 0 else if i = dividers then i - 2 + bulk else i - 1, 3 - bulk⟩

/-- What is on the leaves among some pages. -/
def leafEntries : Tree → List Entry
  | .leaf entries => entries
  | .branch _ => []

/-- The pages below the branches among some pages, each with the entry after it; the last one comes
before the entry `after`. -/
def branchPairs (after : Entry) : Tree → List (Tree × Entry)
  | .leaf _ => []
  | .branch below => below.pairs ++ [(below.lastPage, after)]

/-- Shares out the entries of pages anew, with the entries between them. Gives the new pages and the
entries between those. -/
def shareOut (f : TreeFormat) (inOrder : Bool) (pages : List Tree) (dividers : List Entry) :
    List Tree × List Entry :=
  match pages.getLast? with
  | none => ([], [])
  | some (.leaf lastEntries) =>
    let cells :=
      match f.kind with
      | .table => pages.flatMap leafEntries
      | .index =>
        ((pages.dropLast.zip dividers).flatMap fun (page, d) => leafEntries page ++ [d]) ++
          lastEntries
    let between := match f.kind with | .table => 0 | .index => 1
    let sizes := (cells.map fun e => f.entrySize true e + 2).toArray
    let (pages, fallen) := Sharing.split ⟨f.room true, sizes, between, inOrder⟩ cells
    let dividers :=
      match f.kind with
      | .table => pages.dropLast.filterMap fun page => page.getLast?.map Entry.divider
      | .index => fallen
    (pages.map .leaf, dividers)
  | some (.branch lastBelow) =>
    let cells := ((pages.dropLast.zip dividers).flatMap fun (page, d) => branchPairs d page) ++
      lastBelow.pairs
    let sizes := (cells.map fun c => f.entrySize false c.2 + 2).toArray
    let (pages, fallen) := Sharing.split ⟨f.room false, sizes, 1, inOrder⟩ cells
    let lastPages := fallen.map (·.1) ++ [lastBelow.lastPage]
    ((pages.zip lastPages).map fun (pairs, last) => .branch (.ofPairs pairs last),
      fallen.map (·.2))

/-! ## Balancing -/

/-- Balances the page `i` below a page with its neighbours. A root that has only one page left below
it takes over what that page holds, if there is room. -/
def rebalance (f : TreeFormat) (inOrder isRoot : Bool) (below : Branches) (i : Nat) :
    StateM PageCounts Tree := do
  let pairs := below.pairs
  let neighbours := Neighbours.of inOrder pairs.length i
  let stop := neighbours.first + neighbours.count - 1
  let inner := (pairs.take stop).drop neighbours.first
  let next := pairs[stop]?
  let pages := inner.map (·.1) ++ [(next.map (·.1)).getD below.lastPage]
  let (shared, dividers) := shareOut f inOrder pages (inner.map (·.2))
  modify (PageCounts.take (shared.length - pages.length))
  let before := pairs.take neighbours.first
  let between := before ++ shared.dropLast.zip dividers
  let page := shared.getLast?.getD .empty
  let merges := isRoot && between.isEmpty && next.isNone && f.usedBy page ≤ f.roomOn true page
  modify (PageCounts.give (pages.length - shared.length + if merges then 1 else 0))
  if merges then return page
  else
    match next with
    | some (_, divider) =>
      return .branch (.ofPairs (between ++ (page, divider) :: pairs.drop (stop + 1)) below.lastPage)
    | none => return .branch (.ofPairs between page)

end RoutineParams.Storage
