import RoutineParams.Proofs.Logged
import RoutineParams.Proofs.Marks

/-!
# Preparing files, marked or not

Whether changes of a file are logged is no part of what its tables hold, and preparing it makes the
same of it either way. Where a file cannot be written, preparing it does nothing; and where that is
enough, nothing had to be made.

    preparing a marked image gives the same, marked                          (marksAll_prepare)
    outcome (prepare (.error fault)) im = (.ok u, im') → outcome (prepare write) im = (.ok u, im)
                                                                        (prepare_of_unwritable)
-/

namespace RoutineParams

namespace Storage.Image

/-! ## Lemmas: trees and tables -/

section
variable (im : Image) (logged : Bool)

@[simp] theorem marked_marked (logged' : Bool) :
    (im.marked logged').marked logged = im.marked logged := rfl

@[simp] theorem trees_marked : (im.marked logged).trees = im.trees := rfl

@[simp] theorem tree_marked (root : Nat) : (im.marked logged).tree root = im.tree root := rfl

@[simp] theorem table?_marked (name : String) : (im.marked logged).table? name = im.table? name :=
  rfl

@[simp] theorem rows_marked (t : StoredTable) : (im.marked logged).rows t = im.rows t := rfl

theorem change_marked (root : Nat) (inOrder : Bool)
    (f : Changing → Tree → StateM PageCounts Tree) :
    (im.marked logged).change root inOrder f = (im.change root inOrder f).marked logged := by
  unfold change
  rw [trees_marked]
  cases im.trees.lookup root <;> rfl

theorem insert_marked (root : Nat) (e : Entry) :
    (im.marked logged).insert root e = (im.insert root e).marked logged := change_marked ..

theorem addTree_marked (kind : TreeKind) :
    (im.marked logged).addTree kind =
      ((im.addTree kind).1, (im.addTree kind).2.marked logged) := by
  have hfree : ∀ (im : Image) fuel n, (im.marked logged).freeRoot fuel n = im.freeRoot fuel n := by
    intro im fuel
    induction fuel with
    | zero => exact fun _ => rfl
    | succ fuel ih =>
      intro n
      rw [freeRoot, freeRoot, ih, trees_marked]
  unfold addTree
  simp only [hfree, trees_marked]
  rfl

theorem append_marked (root : Nat) (values : List Value) :
    (im.marked logged).append root values =
      ((im.append root values).1, (im.append root values).2.marked logged) := by
  rw [append, tree_marked, insert_marked]
  rfl

theorem makeTable_marked (s : TableSchema) :
    (im.marked logged).makeTable s = (im.makeTable s).marked logged := by
  simp only [makeTable, addTree_marked, append_marked, insert_marked]

theorem makeIndex_marked (s : TableSchema) :
    (im.marked logged).makeIndex s = (im.makeIndex s).marked logged := by
  have hfold : ∀ (root : Nat) (es : List Entry) (im : Image),
      es.foldl (fun im e => im.change root true fun c t => t.insert c e) (im.marked logged) =
        (es.foldl (fun im e => im.change root true fun c t => t.insert c e) im).marked logged := by
    intro root es
    induction es with
    | nil => exact fun _ => rfl
    | cons e es ih =>
      intro im
      rw [List.foldl_cons, List.foldl_cons, change_marked, ih]
  simp only [makeIndex, addTree_marked, append_marked, table?_marked, rows_marked]
  split
  · rfl
  · exact hfold ..

end

/-! ## Lemmas: changes of marked files -/

/-- A change that makes the same of an image, marked or not. -/
def MarksAll (m : ImageChange) : Prop :=
  ∀ im logged, outcome m (im.marked logged) = ((outcome m im).1, (outcome m im).2.marked logged)

theorem marksAll_throw (fault : Fault) : MarksAll (throw fault) := fun _ _ => rfl

theorem marksAll_pure : MarksAll (pure ⟨⟩) := fun _ _ => rfl

theorem marksAll_bind {m n : ImageChange} (hm : MarksAll m) (hn : MarksAll n) :
    MarksAll (m >>= fun _ => n) := by
  intro im logged
  rw [outcome_bind, outcome_bind, hm]
  obtain ⟨r, im'⟩ := outcome m im
  cases r with
  | error fault => rfl
  | ok u => exact hn im' logged

/-- What is asked of an image does not depend on the mark. -/
theorem marksAll_get {f : Image → ImageChange} (h : ∀ im, MarksAll (f im))
    (hsame : ∀ im logged, f (im.marked logged) = f im) : MarksAll (get >>= f) := by
  intro im logged
  rw [outcome_bind, outcome_bind, outcome_get, outcome_get]
  simp only
  rw [hsame]
  exact h im im logged

/-- A fault under a condition, before a change. -/
theorem marksAll_unless {p : Prop} [Decidable p] {fault : Fault} {next : PUnit → ImageChange}
    (h : MarksAll (next ⟨⟩)) : MarksAll (if p then throw fault >>= next else next ⟨⟩) := by
  split
  · exact fun _ _ => rfl
  · exact h

theorem marksAll_make {write : Except Fault Unit} {f : Image → Image}
    (h : ∀ im logged, f (im.marked logged) = (f im).marked logged) :
    MarksAll (do MonadExcept.ofExcept write; modify f) := by
  refine marksAll_bind (fun im logged => ?_) fun im logged => ?_
  · rw [outcome_ofExcept, outcome_ofExcept]
  · rw [outcome_modify, outcome_modify, h]

theorem marksAll_prepareTable (write : Except Fault Unit) (s : TableSchema) :
    MarksAll (prepareTable write s) := by
  refine marksAll_get (fun im => ?_) fun im logged => rfl
  split
  · exact marksAll_unless (marksAll_make fun im logged => makeTable_marked ..)
  · exact marksAll_pure

theorem marksAll_prepareIndex (write : Except Fault Unit) (s : TableSchema) :
    MarksAll (prepareIndex write s) := by
  refine marksAll_get (fun im => marksAll_unless (marksAll_unless ?_)) fun im logged => rfl
  split
  · split
    · exact marksAll_throw _
    · exact marksAll_make fun im logged => makeIndex_marked ..
  · exact marksAll_pure

/-- **Preparing a file makes the same of it**, marked or not. -/
theorem marksAll_prepare (write : Except Fault Unit) : MarksAll (prepare write) :=
  marksAll_bind (marksAll_prepareTable write _) <|
    marksAll_bind (marksAll_prepareIndex write _) <|
      marksAll_bind (marksAll_prepareTable write _) (marksAll_prepareIndex write _)

/-! ## Lemmas: files that cannot be written -/

/-- A change that does nothing, and if it succeeds, neither does the other one. -/
def IsIdleFor (m m' : ImageChange) : Prop :=
  ∀ im, (outcome m im).2 = im ∧ ((outcome m im).1 = .ok ⟨⟩ → outcome m' im = (.ok ⟨⟩, im))

theorem isIdleFor_throw (fault : Fault) (m : ImageChange) : IsIdleFor (throw fault) m :=
  fun _ => ⟨rfl, fun h => by cases h⟩

theorem isIdleFor_bind {m m' n n' : ImageChange} (hm : IsIdleFor m m') (hn : IsIdleFor n n') :
    IsIdleFor (m >>= fun _ => n) (m' >>= fun _ => n') := by
  intro im
  obtain ⟨hsame, hok⟩ := hm im
  rw [outcome_bind]
  generalize outcome m im = x at hsame hok
  obtain ⟨r, im'⟩ := x
  obtain rfl : im' = im := hsame
  cases r with
  | error fault => exact ⟨rfl, fun h => by cases h⟩
  | ok u =>
    refine ⟨(hn im').1, fun h => ?_⟩
    rw [outcome_bind_of_ok (hok rfl)]
    exact (hn im').2 h

theorem isIdleFor_get {f f' : Image → ImageChange} (h : ∀ im, IsIdleFor (f im) (f' im)) :
    IsIdleFor (get >>= f) (get >>= f') := by
  intro im
  rw [outcome_bind, outcome_bind, outcome_get]
  exact h im im

theorem isIdleFor_unless {p : Prop} [Decidable p] {fault : Fault} {next next' : PUnit → ImageChange}
    (h : IsIdleFor (next ⟨⟩) (next' ⟨⟩)) :
    IsIdleFor (if p then throw fault >>= next else next ⟨⟩)
      (if p then throw fault >>= next' else next' ⟨⟩) := by
  split
  · exact fun im => ⟨rfl, fun h => by cases h⟩
  · exact h

theorem isIdleFor_prepareTable (fault : Fault) (write : Except Fault Unit) (s : TableSchema) :
    IsIdleFor (prepareTable (.error fault) s) (prepareTable write s) := by
  refine isIdleFor_get fun im => ?_
  split
  · exact isIdleFor_unless (isIdleFor_throw fault _)
  · exact fun im => ⟨rfl, fun _ => rfl⟩

theorem isIdleFor_prepareIndex (fault : Fault) (write : Except Fault Unit) (s : TableSchema) :
    IsIdleFor (prepareIndex (.error fault) s) (prepareIndex write s) := by
  refine isIdleFor_get fun im => isIdleFor_unless (isIdleFor_unless ?_)
  split
  · split
    · exact isIdleFor_throw _ _
    · exact isIdleFor_throw fault _
  · exact fun im => ⟨rfl, fun _ => rfl⟩

theorem isIdleFor_prepare (fault : Fault) (write : Except Fault Unit) :
    IsIdleFor (prepare (.error fault)) (prepare write) :=
  isIdleFor_bind (isIdleFor_prepareTable fault write _) <|
    isIdleFor_bind (isIdleFor_prepareIndex fault write _) <|
      isIdleFor_bind (isIdleFor_prepareTable fault write _) (isIdleFor_prepareIndex fault write _)

/-- Where preparing a file that cannot be written does nothing and that is enough, it does nothing
anywhere. -/
theorem prepare_of_unwritable {fault : Fault} {im im' : Image} {u : Unit}
    (h : outcome (prepare (.error fault)) im = (.ok u, im')) (write : Except Fault Unit) :
    im' = im ∧ outcome (prepare write) im = (.ok ⟨⟩, im) := by
  obtain ⟨hsame, hok⟩ := isIdleFor_prepare fault write im
  rw [h] at hsame hok
  exact ⟨hsame, hok rfl⟩

end Storage.Image

end RoutineParams
