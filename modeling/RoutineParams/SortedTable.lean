/-!
# Sorted tables

A table holds one value per key, in ascending order of the keys. Putting a value under a key that
has one replaces it.
-/

namespace RoutineParams

/-- Values under keys. -/
abbrev SortedTable (κ α : Type) := List (κ × α)

namespace SortedTable

variable {κ α : Type}

/-- Puts a value under a key, in place of the one that it has. -/
def put (cmp : κ → κ → Ordering) (k : κ) (a : α) : SortedTable κ α → SortedTable κ α
  | [] => [(k, a)]
  | (l, b) :: t =>
    match cmp k l with
    | .lt => (k, a) :: (l, b) :: t
    | .eq => (k, a) :: t
    | .gt => (l, b) :: put cmp k a t

/-- Puts values under their keys, one after the other. -/
def putAll (cmp : κ → κ → Ordering) (rows : List (κ × α)) (t : SortedTable κ α) :
    SortedTable κ α :=
  rows.foldl (fun t row => put cmp row.1 row.2 t) t

end SortedTable

end RoutineParams
