import Mathlib.Algebra.GroupWithZero.Nat
import Mathlib.Data.List.Dedup
import RoutineParams.Proofs.Changes

/-!
# Totals of a store

What is told of a store is the sum of what it has under each of its names. These are the names under
which it has something, in the order of their bytes.

    s.stats.IsTotalOf s.modulesOf s.parametersOf                                  (isTotalOf_stats)
-/

namespace RoutineParams

/-- What is told of a store that has the routines `modules` and the parameters `rows` of each name:
how much they are in total, and the names that have any, in the order of their bytes. -/
structure StoreStats.IsTotalOf (stats : StoreStats) (modules : String → List Routine)
    (rows : String → List StoredParameter) : Prop where
  ascends : stats.databases.Pairwise (bytesOf · < bytesOf ·)
  mem_iff : ∀ name, name ∈ stats.databases ↔ modules name ≠ [] ∨ rows name ≠ []
  routines : stats.routines = (stats.databases.map fun name => (modules name).length).sum
  parameters : stats.parameters = (stats.databases.map fun name => (rows name).length).sum
  withDefaults : stats.withDefaults =
    (stats.databases.map fun name => (rows name).countP fun row => row.default ≠ "").sum

namespace Store

/-- All things are counted where they are counted under each of some names in turn. -/
theorem length_eq_sum_filter {α : Type} (f : α → String) {names : List String}
    (hnames : names.Nodup) {xs : List α} (h : ∀ x ∈ xs, f x ∈ names) :
    xs.length = (names.map fun name => (xs.filter (f · == name)).length).sum := by
  induction names generalizing xs with
  | nil =>
    cases xs with
    | nil => rfl
    | cons x xs => cases h x List.mem_cons_self
  | cons name names ih =>
    obtain ⟨hnot, hnames⟩ := List.nodup_cons.1 hnames
    have hrest : (xs.filter (f · != name)).length =
        (names.map fun other => (xs.filter (f · == other)).length).sum := by
      rw [ih hnames fun x hx => ?_]
      · refine congrArg List.sum (List.map_congr_left fun other hother => ?_)
        rw [List.filter_filter]
        refine congrArg List.length (List.filter_congr fun x _ => ?_)
        by_cases hx : f x = other
        · have hne : f x ≠ name := fun hname => hnot (hname ▸ hx ▸ hother)
          simp [hx ▸ hne, hx]
        · simp [hx]
      · obtain ⟨hmem, hne⟩ := List.mem_filter.1 hx
        exact (List.mem_cons.1 (h x hmem)).resolve_left (by simpa using hne)
    rw [List.map_cons, List.sum_cons, ← hrest, ← List.countP_eq_length_filter,
      ← List.countP_eq_length_filter, List.length_eq_countP_add_countP (f · == name)]
    exact congrArg _ (List.countP_congr fun x _ => by simp)

/-- The databases of a store are the names under which it has something. -/
theorem mem_databases {s : Store} {name : String} :
    name ∈ s.stats.databases ↔ s.modulesOf name ≠ [] ∨ s.parametersOf name ≠ [] := by
  have hrow : ∀ {names : List String}, name ∈ (SortedTable.putAll compare
      (names.map fun name => (name, ())) []).map (·.1) ↔ name ∈ names := by
    intro names
    rw [List.mem_map]
    constructor
    · rintro ⟨row, hrow, rfl⟩
      have hlast := List.mem_of_getLast? ((SortedTable.mem_putAll_nil _ row).1 hrow)
      obtain ⟨n, hn, rfl⟩ := List.mem_map.1 (List.mem_filter.1 hlast).1
      exact hn
    · intro hname
      refine ⟨(name, ()), (SortedTable.mem_putAll_nil _ _).2 ?_, rfl⟩
      have hne : (names.map fun name => (name, ())).filter (·.1 = name) ≠ [] :=
        List.ne_nil_of_mem (List.mem_filter.2 ⟨List.mem_map_of_mem hname, by simp⟩)
      rw [List.getLast?_eq_some_getLast hne]
      have hmem := List.mem_filter.1 (List.getLast_mem hne)
      exact congrArg some (Prod.ext (of_decide_eq_true hmem.2) rfl)
  have hmodules : s.modulesOf name ≠ [] ↔ name ∈ s.routines.map (·.1.database) := by
    simp [modulesOf, List.filter_eq_nil_iff]
  have hparameters : s.parametersOf name ≠ [] ↔ name ∈ s.parameters.map (·.1.database) := by
    simp [parametersOf, List.filter_eq_nil_iff]
  rw [hmodules, hparameters, ← List.mem_append]
  exact hrow

/-- **What is told of a store** are the totals over all names under which it has something. -/
theorem isTotalOf_stats (s : Store) : s.stats.IsTotalOf s.modulesOf s.parametersOf := by
  have hascends : s.stats.databases.Pairwise (bytesOf · < bytesOf ·) := by
    refine List.pairwise_map.2 (List.Pairwise.imp (fun hlt => ?_)
      (SortedTable.Ascends.putAll .nil _ : SortedTable.Ascends compare _))
    exact lt_iff_bytesOf_lt.1 (compareOfLessAndEq_eq_lt.1 hlt)
  have hnames : s.stats.databases.Nodup :=
    hascends.imp fun {a b} hlt => by
      rintro rfl
      exact List.lt_irrefl _ hlt
  have hroutines : ∀ row ∈ s.routines, row.1.database ∈ s.stats.databases := fun row hrow =>
    mem_databases.2 (Or.inl (List.ne_nil_of_mem (List.mem_map_of_mem
      (List.mem_filter.2 ⟨hrow, beq_self_eq_true _⟩))))
  have hparameters : ∀ row ∈ s.parameters, row.1.database ∈ s.stats.databases := fun row hrow =>
    mem_databases.2 (Or.inr (List.ne_nil_of_mem (List.mem_map_of_mem
      (List.mem_filter.2 ⟨hrow, beq_self_eq_true _⟩))))
  refine ⟨hascends, fun name => mem_databases, ?_, ?_, ?_⟩
  · rw [show s.stats.routines = _ from length_eq_sum_filter (·.1.database) hnames hroutines]
    simp [modulesOf]
  · rw [show s.stats.parameters = _ from length_eq_sum_filter (·.1.database) hnames hparameters]
    simp [parametersOf]
  · have hdefaults : (s.parameters.filter fun row => !row.2.default.isEmpty).length = _ :=
      length_eq_sum_filter (·.1.database) hnames fun row hrow =>
        hparameters row (List.mem_filter.1 hrow).1
    rw [show s.stats.withDefaults = _ from hdefaults]
    refine congrArg List.sum (List.map_congr_left fun name _ => ?_)
    rw [parametersOf, List.countP_map, List.countP_filter, List.filter_filter,
      ← List.countP_eq_length_filter]
    refine List.countP_congr fun row _ => ?_
    by_cases hdefault : row.2.default = "" <;> simp [parameterOf, hdefault]

end Store

end RoutineParams
