import RoutineParams.Extraction
import RoutineParams.Routine

/-!
# Reports

The parameters of many routines. The routines are cut into batches; several threads work at a
time, each on one batch, and the batches' reports are joined in order. That threads can be had is
taken for granted: a machine that refuses to start them is none that this tells of.
-/

namespace RoutineParams

structure Report where
  routines : Nat
  parameters : List Parameter
  /-- How many of the routines were read only in part. -/
  partials : Nat
deriving DecidableEq, Repr

namespace Report

def empty : Report := ⟨0, [], 0⟩

def append (a b : Report) : Report :=
  ⟨a.routines + b.routines, a.parameters ++ b.parameters, a.partials + b.partials⟩

def ofRoutine (r : Routine) : Report :=
  let e := extract r.objectId r.definition
  ⟨1, e.parameters, if e.isPartial then 1 else 0⟩

/-- The report on the routines of a batch, one after the other. -/
def ofBatch (rs : List Routine) : Report :=
  rs.foldl (fun report r => report.append (ofRoutine r)) empty

/-- Cuts a list into pieces of `n` items each, the last of which may be shorter. -/
def pieces {α : Type} (n : Nat) (xs : List α) : List (List α) :=
  match xs with
  | [] => []
  | x :: xs => (x :: xs.take (n - 1)) :: pieces n (xs.drop (n - 1))
termination_by xs.length
decreasing_by simp only [List.length_drop, List.length_cons]; omega

/-- The reports on some batches, which are worked on at the same time. -/
def ofBatches (batches : List (List Routine)) : List Report :=
  let tasks := batches.map fun batch => Task.spawn fun _ => ofBatch batch
  tasks.map Task.get

/-- The report on routines in batches of `batchSize`, of which `threads` are worked on at a time. -/
def ofRoutines (threads batchSize : Nat) (rs : List Routine) : Report :=
  ((pieces threads (pieces batchSize rs)).flatMap ofBatches).foldl append empty

def withDefaults (r : Report) : Nat := (r.parameters.filter Parameter.hasDefault).length

end Report

end RoutineParams
