/-!
# Pages

A database file is cut into pages of one size, the last bytes of which may be reserved. A page of a
tree holds entries, each with a place in a list at the front; what an entry has beyond a share that
depends on the page lies on pages of its own.

All sizes are in bytes.
-/

namespace RoutineParams.Storage

/-- How a file is cut into pages. -/
structure PageFormat where
  size : Nat
  reserved : Nat
deriving DecidableEq, Repr

def PageFormat.sizes : List Nat := [512, 1024, 2048, 4096, 8192, 16384, 32768, 65536]

def PageFormat.standard : PageFormat := ⟨4096, 0⟩

/-- The number of the encoding of texts in new files. -/
def utf8Encoding : Nat := 1

/-- What a page has room for. -/
def PageFormat.usable (f : PageFormat) : Nat := f.size - f.reserved

/-- The page that starts with some bytes. The rest of it is zero. -/
def PageFormat.fill (f : PageFormat) (data : ByteArray) : ByteArray :=
  data ++ ⟨(List.replicate (f.size - data.size) 0).toArray⟩

/-- What a tree holds: rows under their numbers, all of them in its leaves, or entries that are
their own keys. -/
inductive TreeKind where
  | table
  | index
deriving DecidableEq, Repr

/-- The form of the pages of a tree: what they hold, and how much of the root is taken otherwise. -/
structure TreeFormat where
  page : PageFormat
  kind : TreeKind
  rootHeader : Nat

namespace TreeFormat

/-- The largest share of a payload that stays on its page. -/
def maxShare (f : TreeFormat) : Nat :=
  match f.kind with
  | .table => f.page.usable - 35
  | .index => (f.page.usable - 12) * 64 / 255 - 23

/-- The least share of a payload that stays on its page if not all of it does. -/
def minShare (f : TreeFormat) : Nat := (f.page.usable - 12) * 32 / 255 - 23

/-- What a page holds of a payload that goes on elsewhere. -/
def spillRoom (f : TreeFormat) : Nat := f.page.usable - 4

/-- The share of a payload that stays on its page. Where some of it does not, the pages that it goes
on to are full if that is possible. -/
def share (f : TreeFormat) (payload : Nat) : Nat :=
  if payload ≤ f.maxShare then payload
  else
    let share := f.minShare + (payload - f.minShare) % f.spillRoom
    if share ≤ f.maxShare then share else f.minShare

/-- How many pages a payload takes besides its own. -/
def spillCount (f : TreeFormat) (payload : Nat) : Nat :=
  (payload - f.share payload + (f.spillRoom - 1)) / f.spillRoom

/-- The room for entries on a leaf or another page that is no root. -/
def room (f : TreeFormat) (isLeaf : Bool) : Nat := f.page.usable - if isLeaf then 8 else 12

end TreeFormat

end RoutineParams.Storage
