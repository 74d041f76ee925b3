import Mathlib.Data.Prod.Basic

/-!
# Outcomes of steps with a state and faults

A step works on a state and gives an answer or a fault; what it did to the state before a fault
stays. Its outcome on a state is the answer or fault with the state after it.

    outcome (m >>= f) s = .ok b ↔ m gives an answer, and f of that gives b      (outcome_bind_ok)
-/

namespace RoutineParams

variable {ε σ α β : Type}

/-- What a step gives on a state, and the state after it. -/
def outcome (m : ExceptT ε (StateM σ) α) (s : σ) : Except ε α × σ := (ExceptT.run m).run s

@[simp] theorem outcome_pure (a : α) (s : σ) :
    outcome (pure a : ExceptT ε (StateM σ) α) s = (.ok a, s) := rfl

@[simp] theorem outcome_throw (e : ε) (s : σ) :
    outcome (throw e : ExceptT ε (StateM σ) α) s = (.error e, s) := rfl

@[simp] theorem outcome_get (s : σ) :
    outcome (get : ExceptT ε (StateM σ) σ) s = (.ok s, s) := rfl

@[simp] theorem outcome_modify (f : σ → σ) (s : σ) :
    outcome (modify f : ExceptT ε (StateM σ) PUnit) s = (.ok ⟨⟩, f s) := rfl

@[simp] theorem outcome_ofExcept (r : Except ε α) (s : σ) :
    outcome (MonadExcept.ofExcept r : ExceptT ε (StateM σ) α) s = (r, s) := by
  cases r <;> rfl

/-- What is seen of an answer is seen of one that was given. -/
theorem exists_of_toOption_map {r : Except ε α} {f : α → β} {b : β}
    (h : r.toOption.map f = some b) : ∃ a, r = .ok a ∧ f a = b := by
  cases r with
  | error e => cases h
  | ok a => exact ⟨a, rfl, Option.some.inj h⟩

/-- A step after a step: it goes on if there was an answer. -/
theorem outcome_bind (m : ExceptT ε (StateM σ) α) (f : α → ExceptT ε (StateM σ) β) (s : σ) :
    outcome (m >>= f) s =
      match outcome m s with
      | (.ok a, t) => outcome (f a) t
      | (.error e, t) => (.error e, t) := by
  have hbind : outcome (m >>= f) s =
      (fun x => (ExceptT.bindCont f x.1).run x.2) ((ExceptT.run m).run s) := rfl
  rw [hbind, outcome]
  cases (ExceptT.run m).run s with
  | mk a t => cases a <;> rfl

/-- A step after an answer goes on from there. -/
theorem outcome_bind_of_ok {m : ExceptT ε (StateM σ) α} {f : α → ExceptT ε (StateM σ) β} {s t : σ}
    {a : α} (h : outcome m s = (.ok a, t)) : outcome (m >>= f) s = outcome (f a) t := by
  rw [outcome_bind, h]

@[simp] theorem outcome_map (f : α → β) (m : ExceptT ε (StateM σ) α) (s : σ) :
    outcome (f <$> m) s = ((outcome m s).1.map f, (outcome m s).2) := by
  rw [← bind_pure_comp, outcome_bind]
  split <;> simp [*, Except.map]

/-- A step whose fault is handled. -/
theorem outcome_tryCatch (m : ExceptT ε (StateM σ) α) (f : ε → ExceptT ε (StateM σ) α) (s : σ) :
    outcome (tryCatch m f) s =
      match outcome m s with
      | (.ok a, t) => (.ok a, t)
      | (.error e, t) => outcome (f e) t := by
  have hcatch : outcome (tryCatch m f) s =
      (fun x : Except ε α × σ => (match x.1 with
        | .ok a => pure (.ok a)
        | .error e => ExceptT.run (f e) : StateM σ (Except ε α)).run x.2)
        ((ExceptT.run m).run s) := rfl
  rw [hcatch, outcome]
  cases (ExceptT.run m).run s with
  | mk a t => cases a <;> rfl

/-- An answer after two steps comes from answers of both. -/
theorem outcome_bind_ok {m : ExceptT ε (StateM σ) α} {f : α → ExceptT ε (StateM σ) β} {s u : σ}
    {b : β} (h : outcome (m >>= f) s = (.ok b, u)) :
    ∃ a t, outcome m s = (.ok a, t) ∧ outcome (f a) t = (.ok b, u) := by
  rw [outcome_bind] at h
  split at h
  · exact ⟨_, _, ‹_›, h⟩
  · cases h

end RoutineParams
