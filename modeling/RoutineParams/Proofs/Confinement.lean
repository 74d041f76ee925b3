import RoutineParams.Proofs.Companions
import RoutineParams.Proofs.Logged

/-!
# What opening a file can touch

Whatever happens when a database file is opened to be changed, the file is written, and others come
and go only beside it, at places where there is no directory.

    Confined canLog dir last (openContent (changing canLog) (dir ++ [last]) content)
                                                                        (confined_openContent)
-/

namespace RoutineParams

open Storage (Fault Image)

/-! ## Lemmas: steps that are confined to the file and those beside it -/

namespace Opening

variable {α β : Type} {canLog : Bool} {dir : List String} {last : String}

/-- How files are opened that can be changed. -/
def changing (canLog : Bool) : Access := ⟨true, false, canLog⟩

@[simp] theorem canWrite_changing (canLog : Bool) : (changing canLog).canWrite = true := rfl

@[simp] theorem isFixed_changing (canLog : Bool) : (changing canLog).isFixed = false := rfl

@[simp] theorem canLog_changing (canLog : Bool) : (changing canLog).canLog = canLog := rfl

/-- A step that only writes the file `last` in the directory `dir` and changes the files beside. -/
def Confined (canLog : Bool) (dir : List String) (last : String) (o : Opening α) : Prop :=
  ∀ t, Alters canLog dir last t (outcome o t).2

theorem Confined.alters {o : Opening α} (h : Confined canLog dir last o) {t t' : FileTree}
    {r : Except Fault α} (ho : outcome o t = (r, t')) : Alters canLog dir last t t' := by
  have halters := h t
  rwa [ho] at halters

theorem confined_pure (a : α) : Confined canLog dir last (pure a : Opening α) := fun _ => .refl

theorem confined_throw (fault : Fault) : Confined canLog dir last (throw fault : Opening α) :=
  fun _ => .refl

theorem confined_ofExcept (r : Except Fault α) :
    Confined canLog dir last (MonadExcept.ofExcept r : Opening α) := by
  intro t
  rw [outcome_ofExcept]
  exact .refl

theorem confined_put (content : FileTree → Content) :
    Confined canLog dir last
      (modify fun t => t.put (dir ++ [last]) (.file (content t)) : Opening PUnit) :=
  fun t => .write (content t) .refl

theorem confined_get {f : FileTree → Opening α} (h : ∀ t, Confined canLog dir last (f t)) :
    Confined canLog dir last (get >>= f) := by
  intro t
  rw [outcome_bind, outcome_get]
  exact h t t

theorem confined_bind {o : Opening α} {f : α → Opening β} (ho : Confined canLog dir last o)
    (hf : ∀ a, Confined canLog dir last (f a)) : Confined canLog dir last (o >>= f) := by
  intro t
  have h := ho t
  rw [outcome_bind]
  split
  · rename_i heq
    rw [heq] at h
    exact h.trans (hf _ _)
  · rename_i heq
    rw [heq] at h
    exact h

/-- After a fault there is no further step. -/
theorem confined_throw_bind (fault : Fault) (f : α → Opening β) :
    Confined canLog dir last (throw fault >>= f) := fun _ => .refl

theorem confined_tryCatch {o : Opening α} {f : Fault → Opening α}
    (ho : Confined canLog dir last o) (hf : ∀ fault, Confined canLog dir last (f fault)) :
    Confined canLog dir last (tryCatch o f) := by
  intro t
  have h := ho t
  rw [outcome_tryCatch]
  split
  · rename_i heq
    rw [heq] at h
    exact h
  · rename_i heq
    rw [heq] at h
    exact h.trans (hf _ _)

/-- A step under a condition. -/
theorem confined_ite {p : Prop} [Decidable p] {o o' : Opening α}
    (ho : p → Confined canLog dir last o) (ho' : ¬p → Confined canLog dir last o') :
    Confined canLog dir last (if p then o else o') := by
  split
  · exact ho ‹_›
  · exact ho' ‹_›

theorem confined_eraseBeside (c : Companion) :
    Confined canLog dir last (modify fun t => t.eraseBeside (dir ++ [last]) c : Opening PUnit) :=
  fun t => .eraseBeside t c

theorem confined_rollBack (a : Access) (content : Content) :
    Confined canLog dir last (rollBack a (dir ++ [last]) content) := by
  refine confined_get fun t => ?_
  split
  · exact confined_pure _
  · exact confined_ite (fun _ => confined_pure _) fun _ => confined_throw _
  refine confined_ite (fun _ => ?_) fun _ => confined_ite (fun _ => confined_pure _) fun _ =>
    confined_ite (fun _ => ?_) fun _ => confined_throw _
  · exact confined_ite (fun _ => confined_bind (confined_eraseBeside _) fun _ => confined_pure _)
      fun _ => confined_pure _
  · refine confined_get fun t => ?_
    refine confined_bind (fun t => ?_) fun _ => confined_pure _
    exact Alters.trans (.write _ .refl) (.eraseBeside _ .journal)

theorem confined_findLog (a : Access) (isBlank : Bool) :
    Confined canLog dir last (findLog a (dir ++ [last]) isBlank) := by
  refine confined_get fun t => ?_
  split
  · exact confined_pure _
  · exact confined_throw _
  · refine confined_ite
      (fun _ => confined_bind (confined_eraseBeside _) fun _ => confined_pure _) fun _ => ?_
    exact confined_ite (fun _ => confined_pure _) fun _ => confined_throw _

theorem confined_catchUp (a : Access) (content : Content) :
    Confined canLog dir last (catchUp a (dir ++ [last]) content) := by
  refine confined_get fun t => ?_
  split
  · exact confined_ite (fun _ => confined_bind (confined_put _) fun _ => confined_pure _)
      fun _ => confined_pure _
  · exact confined_pure _

theorem confined_startJournal : Confined canLog dir last (startJournal (dir ++ [last])) :=
  confined_get fun _ => confined_ite (fun _ => confined_eraseBeside _) fun _ => confined_throw _

theorem confined_write (file : DatabaseFile) :
    Confined canLog dir last (write (dir ++ [last]) file) := by
  unfold write
  exact confined_ite (fun _ => confined_bind confined_startJournal fun _ => confined_put _)
    fun _ => confined_put _

theorem confined_prepare (w : Except Fault Unit) (im : Image) :
    Confined canLog dir last (prepare (dir ++ [last]) w im) := by
  unfold prepare
  generalize (ExceptT.run (Image.prepare w)).run im = prepared
  obtain ⟨result, prepared⟩ := prepared
  cases result with
  | error fault =>
    have hend : Confined canLog dir last (if prepared.trees.length ≠ im.trees.length then do
        modify fun t => t.put (dir ++ [last]) (.file (.bytes prepared.toBytes))
        throw fault
      else throw fault : Opening DatabaseFile) :=
      confined_ite (fun _ => confined_bind (confined_put _) fun _ => confined_throw _)
        fun _ => confined_throw _
    exact confined_ite (fun _ => confined_bind (confined_eraseBeside _) fun _ => hend)
      fun _ => hend
  | ok _ =>
    exact confined_ite (fun _ => confined_bind (confined_eraseBeside _) fun _ => confined_pure _)
      fun _ => confined_pure _

theorem confined_openWith (a : Access) (usesLog : Bool) (content : Content) :
    Confined canLog dir last (openWith a usesLog (dir ++ [last]) content) := by
  refine confined_bind (confined_ofExcept _) fun found => ?_
  extract_lets isFrozen canWrite switches logs rest switched
  have hrest : ∀ u, Confined canLog dir last (rest u) := by
    intro u
    refine confined_get fun t => ?_
    extract_lets isStuck canWrite done
    have hdone : ∀ file, Confined canLog dir last (done file) := fun file =>
      confined_ite (fun _ => confined_bind (confined_put _) fun _ => confined_pure _)
        fun _ => confined_pure _
    split
    · exact hdone _
    · exact confined_bind (confined_prepare _ _) hdone
  have hswitched : ∀ u, Confined canLog dir last (switched u) := fun u =>
    confined_bind confined_startJournal fun _ => confined_bind (confined_put _) hrest
  refine confined_ite (fun _ => ?_) fun _ => hrest ⟨⟩
  exact confined_ite (fun _ => confined_bind (confined_throw _) hswitched) fun _ => hswitched ⟨⟩

theorem alters_closeLog (t : FileTree) :
    Alters true dir last t (closeLog (changing true) (dir ++ [last]) t) := by
  unfold closeLog
  extract_lets blank kept
  have hkept : Alters true dir last t kept := by
    unfold kept
    split
    · rename_i hnothing
      have hnot : ¬t.IsDirectory (Companion.log.path (dir ++ [last])) := by
        rw [← FileTree.beside_eq_directory_iff, hnothing]
        simp
      rw [Companion.path_append] at hnot ⊢
      exact .makeLog _ .refl rfl hnot
    · exact .refl
  split
  · exact hkept
  · exact (Alters.eraseBeside t .log).trans (.eraseBeside _ .logIndex)

/-- However a file is opened to be changed, files come and go beside it only. -/
theorem confined_openContent (canLog : Bool) (content : Content) :
    Confined canLog dir last (openContent (changing canLog) (dir ++ [last]) content) := by
  have hclose : ∀ usesLog : Bool, (usesLog = true → canLog = true) →
      Confined canLog dir last (modify fun t =>
        if usesLog || ((changing canLog).canLog && !(changing canLog).isFixed &&
            isLoggedAt t (dir ++ [last])) then
          closeLog (changing canLog) (dir ++ [last]) t
        else t : Opening PUnit) := by
    intro usesLog husesLog t
    rw [outcome_modify]
    cases canLog with
    | true =>
      dsimp only
      split
      · exact alters_closeLog t
      · exact .refl
    | false =>
      -- without a log none is closed
      obtain rfl : usesLog = false := by
        cases usesLog with
        | false => rfl
        | true => exact (husesLog rfl).symm
      exact .refl
  unfold openContent
  extract_lets rolled
  have hrolled : ∀ content, Confined canLog dir last (rolled content) := by
    intro content
    unfold rolled
    extract_lets found
    have hfound : ∀ hasLog, Confined canLog dir last (found hasLog) := by
      intro hasLog
      unfold found
      extract_lets usesLog close caughtUp allowed
      refine confined_get fun t => ?_
      refine confined_ite (fun _ => confined_throw_bind _ _) fun hcan => ?_
      have husesLog : usesLog = true → canLog = true := fun h => by
        rw [h, Bool.true_and, canLog_changing] at hcan
        cases canLog with
        | true => rfl
        | false => exact absurd rfl hcan
      have hcaughtUp : ∀ content, Confined canLog dir last (caughtUp content) := fun content =>
        confined_bind (confined_tryCatch (confined_openWith _ _ _) fun _ =>
          confined_bind (hclose _ husesLog) fun _ => confined_throw _) fun _ =>
          confined_bind (hclose _ husesLog) fun _ => confined_pure _
      exact confined_ite (fun _ => confined_bind (confined_catchUp _ _) hcaughtUp)
        fun _ => hcaughtUp _
    exact confined_ite (fun _ => hfound _) fun _ => confined_bind (confined_findLog _ _) hfound
  exact confined_ite (fun _ => hrolled _) fun _ => confined_bind (confined_rollBack _ _) hrolled

end Opening

end RoutineParams
