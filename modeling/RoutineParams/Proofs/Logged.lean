import RoutineParams.DatabaseFile
import RoutineParams.Proofs.Outcomes

/-!
# Files that say that changes are logged

Whether changes of a file are first written to a log is told when it is opened. What is put into its
tables, taken out of them or made in it leaves that as it is.

    (outcome (prepare write) im).2.logged = im.logged                     (keepsLogged_prepare)
    Loose.apply im c = .ok im' → im'.logged = im.logged                    (Loose.logged_apply)
-/

namespace RoutineParams

namespace Storage.Image

/-! ## Lemmas: trees and rows -/

@[simp] theorem logged_change (im : Image) (root : Nat) (inOrder : Bool)
    (f : Changing → Tree → StateM PageCounts Tree) :
    (im.change root inOrder f).logged = im.logged := by
  unfold change
  split <;> rfl

@[simp] theorem logged_insert (im : Image) (root : Nat) (e : Entry) :
    (im.insert root e).logged = im.logged := logged_change ..

@[simp] theorem logged_erase (im : Image) (root : Nat) (key : List Value) :
    (im.erase root key).logged = im.logged := logged_change ..

/-- What each change of a list keeps, all of them keep. -/
theorem keeps_foldl {α β : Type} (g : Image → β) {f : Image → α → Image} {xs : List α}
    (h : ∀ im, ∀ a ∈ xs, g (f im a) = g im) (im : Image) : g (xs.foldl f im) = g im := by
  induction xs generalizing im with
  | nil => rfl
  | cons x xs ih =>
    rw [List.foldl_cons, ih fun im a ha => h im a (List.mem_cons_of_mem _ ha),
      h im x List.mem_cons_self]

theorem keeps_elim {α β : Type} (g : Image → β) {im : Image} {f : α → Image}
    (h : ∀ a, g (f a) = g im) (a : Option α) : g (a.elim im f) = g im := by
  cases a with
  | none => rfl
  | some a => exact h a

theorem logged_foldl {α : Type} {f : Image → α → Image}
    (h : ∀ im a, (f im a).logged = im.logged) (xs : List α) (im : Image) :
    (xs.foldl f im).logged = im.logged := keeps_foldl logged (fun im a _ => h im a) im

theorem logged_elim {α : Type} {im : Image} {f : α → Image} (h : ∀ a, (f a).logged = im.logged)
    (a : Option α) : (a.elim im f).logged = im.logged := keeps_elim logged h a

@[simp] theorem logged_dropRow (im : Image) (t : StoredTable) (via : Option Nat) (r : Row) :
    (im.dropRow t via r).logged = im.logged := by
  unfold dropRow
  simp only
  rw [logged_foldl fun im x => logged_erase ..]
  refine (logged_elim (fun e => logged_erase ..) _).trans ?_
  exact logged_foldl (fun im x => logged_erase ..) _ _

@[simp] theorem logged_putRow (im : Image) (t : StoredTable) (values : List Value) :
    (im.putRow t values).logged = im.logged := by
  unfold putRow
  simp only
  rw [logged_insert, logged_foldl fun im x => logged_insert ..,
    logged_foldl fun im x => logged_elim (fun r => logged_dropRow ..) _]
  exact logged_elim (fun r => logged_dropRow ..) _

@[simp] theorem logged_dropRows (im : Image) (t : StoredTable) (place : Nat) (v : Value) :
    (im.dropRows t place v).logged = im.logged := by
  unfold dropRows
  split
  · exact logged_foldl (fun im e => logged_elim (fun r => logged_dropRow ..) _) _ _
  · exact logged_foldl (fun im r => logged_dropRow ..) _ _

/-! ## Lemmas: making tables -/

@[simp] theorem logged_addTree (im : Image) (kind : TreeKind) :
    (im.addTree kind).2.logged = im.logged := rfl

@[simp] theorem logged_append (im : Image) (root : Nat) (values : List Value) :
    (im.append root values).2.logged = im.logged := logged_insert ..

@[simp] theorem logged_makeTable (im : Image) (s : TableSchema) :
    (im.makeTable s).logged = im.logged := by
  unfold makeTable
  simp

@[simp] theorem logged_makeIndex (im : Image) (s : TableSchema) :
    (im.makeIndex s).logged = im.logged := by
  unfold makeIndex
  simp only
  split
  · simp
  · rw [logged_foldl fun im e => logged_change ..]
    simp

/-! ## Lemmas: preparing -/

/-- A change that leaves it as it is whether changes are logged. -/
def KeepsLogged (m : ImageChange) : Prop := ∀ im, (outcome m im).2.logged = im.logged

theorem keepsLogged_throw (fault : Fault) : KeepsLogged (throw fault) := fun _ => rfl

theorem keepsLogged_pure : KeepsLogged (pure ⟨⟩) := fun _ => rfl

theorem keepsLogged_bind {m n : ImageChange} (hm : KeepsLogged m) (hn : KeepsLogged n) :
    KeepsLogged (m >>= fun _ => n) := by
  intro im
  have h := hm im
  rw [outcome_bind]
  split
  · rename_i heq
    rw [heq] at h
    exact (hn _).trans h
  · rename_i heq
    rw [heq] at h
    exact h

/-- What is asked of a file does not change it. -/
theorem keepsLogged_get {f : Image → ImageChange} (h : ∀ im, KeepsLogged (f im)) :
    KeepsLogged (get >>= f) := by
  intro im
  rw [outcome_bind, outcome_get]
  exact h im im

theorem keepsLogged_ofExcept (r : Except Fault Unit) : KeepsLogged (MonadExcept.ofExcept r) := by
  intro im
  rw [outcome_ofExcept]

/-- A fault under a condition, before a change. -/
theorem keepsLogged_unless {p : Prop} [Decidable p] {fault : Fault} {next : PUnit → ImageChange}
    (h : KeepsLogged (next ⟨⟩)) :
    KeepsLogged (if p then throw fault >>= next else next ⟨⟩) := by
  split
  · exact fun _ => rfl
  · exact h

theorem keepsLogged_make {write : Except Fault Unit} {f : Image → Image}
    (h : ∀ im, (f im).logged = im.logged) :
    KeepsLogged (do MonadExcept.ofExcept write; modify f) :=
  keepsLogged_bind (keepsLogged_ofExcept write) h

theorem keepsLogged_prepareTable (write : Except Fault Unit) (s : TableSchema) :
    KeepsLogged (prepareTable write s) := by
  refine keepsLogged_get fun im => ?_
  split
  · exact keepsLogged_unless (keepsLogged_make fun im => logged_makeTable ..)
  · exact keepsLogged_pure

theorem keepsLogged_prepareIndex (write : Except Fault Unit) (s : TableSchema) :
    KeepsLogged (prepareIndex write s) := by
  refine keepsLogged_get fun im => keepsLogged_unless (keepsLogged_unless ?_)
  split
  · split
    · exact keepsLogged_throw _
    · exact keepsLogged_make fun im => logged_makeIndex ..
  · exact keepsLogged_pure

/-- Preparing a file leaves it as it is whether its changes are logged. -/
theorem keepsLogged_prepare (write : Except Fault Unit) : KeepsLogged (prepare write) :=
  keepsLogged_bind (keepsLogged_prepareTable write _) <|
    keepsLogged_bind (keepsLogged_prepareIndex write _) <|
      keepsLogged_bind (keepsLogged_prepareTable write _) (keepsLogged_prepareIndex write _)

end Storage.Image

/-! ## Lemmas: changes -/

namespace Loose

open Storage

theorem logged_putRows {im im' : Image} {s : TableSchema} {rows : List (List Value)}
    (h : putRows im s rows = .ok im') : im'.logged = im.logged := by
  unfold putRows at h
  cases htable : table im s with
  | error f => rw [htable] at h; cases h
  | ok t =>
    rw [htable] at h
    simp only [bind, Except.bind] at h
    split at h
    · cases h
    clear htable
    induction rows generalizing im with
    | nil =>
      obtain rfl := Except.ok.inj h
      rfl
    | cons row rows ih =>
      rw [List.foldlM_cons] at h
      split at h
      · cases h
      · exact (ih h).trans (Image.logged_putRow ..)

/-- A change of the tables of a file leaves it as it is whether its changes are logged. -/
theorem logged_apply {im im' : Image} {c : StoreChange} (h : apply im c = .ok im') :
    im'.logged = im.logged := by
  cases c with
  | routines name rs => exact logged_putRows h
  | parameters now name ps =>
    unfold apply at h
    cases htable : table im .parameters with
    | error f => rw [htable] at h; cases h
    | ok t =>
      rw [htable] at h
      simp only [bind, Except.bind] at h
      split at h
      · cases h
      · exact (logged_putRows h).trans (Image.logged_dropRows ..)

end Loose

end RoutineParams
