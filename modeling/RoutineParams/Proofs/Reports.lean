import RoutineParams.Report

/-!
# Reports on shared out routines

However routines are cut into batches, and however many batches are worked on at a time, the joined
report is the one that takes the routines one after the other: reports are joined as the lists of
their routines are.

    sequential (rs ++ qs) = (sequential rs).append (sequential qs)        (sequential_append)
    ofRoutines threads batchSize rs = sequential rs              (ofRoutines_eq_sequential)
-/

namespace RoutineParams

/-- The parameters of a routine. -/
def Routine.parameters (r : Routine) : List Parameter :=
  (extract r.objectId r.definition).parameters

/-- Whether a routine is read only in part. -/
def Routine.isPartial (r : Routine) : Bool := (extract r.objectId r.definition).isPartial

namespace Report

/-- The report on routines that are taken one after the other. -/
def sequential (rs : List Routine) : Report :=
  ⟨rs.length, rs.flatMap Routine.parameters, rs.countP Routine.isPartial⟩

/-! ## Lemmas: batches -/

@[simp] theorem append_empty (r : Report) : r.append empty = r := by
  simp [append, empty]

@[simp] theorem empty_append (r : Report) : empty.append r = r := by
  simp [append, empty]

theorem append_assoc (a b c : Report) : (a.append b).append c = a.append (b.append c) := by
  simp [append, Nat.add_assoc]

theorem sequential_append (rs qs : List Routine) :
    sequential (rs ++ qs) = (sequential rs).append (sequential qs) := by
  simp [sequential, append]

theorem ofRoutine_eq (r : Routine) : ofRoutine r = sequential [r] := by
  rw [sequential, List.flatMap_singleton, List.countP_singleton]
  rfl

/-- Reports on batches are joined to that on all their routines. -/
theorem foldl_append_sequential (batches : List (List Routine)) (r : Report) :
    (batches.map sequential).foldl append r = r.append (sequential batches.flatten) := by
  induction batches generalizing r with
  | nil => exact (append_empty r).symm
  | cons batch batches ih =>
    rw [List.map_cons, List.foldl_cons, ih, List.flatten_cons, sequential_append, append_assoc]

theorem ofBatch_eq (rs : List Routine) : ofBatch rs = sequential rs := by
  have hsingle : rs.map ofRoutine = (rs.map fun r => [r]).map sequential := by
    rw [List.map_map]
    exact List.map_congr_left fun r _ => ofRoutine_eq r
  have hfold : ofBatch rs = (rs.map ofRoutine).foldl append empty := by
    rw [ofBatch, List.foldl_map]
  rw [hfold, hsingle, foldl_append_sequential, empty_append, ← List.flatMap_def]
  congr 1
  exact List.flatMap_singleton' rs

/-- Batches that are worked on at the same time give the reports that they give one by one. -/
theorem ofBatches_eq (batches : List (List Routine)) :
    ofBatches batches = batches.map sequential := by
  rw [ofBatches, List.map_map]
  exact List.map_congr_left fun batch _ => ofBatch_eq batch

/-- What was cut into pieces is put together again, whatever their size. -/
theorem flatten_pieces {α : Type} (n : Nat) (xs : List α) : (pieces n xs).flatten = xs := by
  fun_induction pieces n xs with
  | case1 => rfl
  | case2 x xs ih => rw [List.flatten_cons, ih, List.cons_append, List.take_append_drop]

theorem ofRoutines_eq_sequential (threads batchSize : Nat) (rs : List Routine) :
    ofRoutines threads batchSize rs = sequential rs := by
  have hreports : (pieces threads (pieces batchSize rs)).flatMap ofBatches =
      (pieces batchSize rs).map sequential := by
    rw [funext ofBatches_eq, List.flatMap_def, ← List.map_flatten, flatten_pieces]
  rw [ofRoutines, hreports, foldl_append_sequential, empty_append, flatten_pieces]

/-- The parameters of a report are those of its routines, however these are shared out. -/
theorem parameters_ofRoutines (threads batchSize : Nat) (rs : List Routine) :
    (ofRoutines threads batchSize rs).parameters = rs.flatMap Routine.parameters := by
  rw [ofRoutines_eq_sequential]
  rfl

/-! ## Top theorem (proved from the lemmas above) -/

/-- **A report does not depend on how the work is shared out**: it counts the routines, has their
parameters in their order, and counts those that were read with a diagnostic. -/
theorem ofRoutines_eq (threads batchSize : Nat) (rs : List Routine) :
    ofRoutines threads batchSize rs =
      ⟨rs.length, rs.flatMap fun r => (extract r.objectId r.definition).parameters,
        rs.countP fun r => (extract r.objectId r.definition).diagnostic.isSome⟩ := by
  rw [ofRoutines_eq_sequential]
  rfl

end Report

end RoutineParams
