import RoutineParams.Command
import RoutineParams.Proofs.FitFiles

/-!
# Names of databases

The name of a database asks for the same whether or not its file may be made, but for the mode. A
name that starts as a URI does says itself in which mode its file is opened.

    a name that is no URI asks for its path, or for nothing if it has a zero byte       (ofName_eq)
    a name that can be asked for can be asked for again                            (ofName_reopens)
-/

namespace RoutineParams

open Storage (Fault)

/-! ## Lemmas: actions -/

namespace Action

variable {α : Type}

@[simp] theorem outcome_ask (f : FileTree → Except Error α) (s : Session) :
    outcome (ask f) s = (f s.files, s) := by
  rw [ask, outcome_bind, outcome_get]
  simp only
  cases f s.files <;> rfl

@[simp] theorem outcome_print (p : Printed) (s : Session) :
    outcome (print p) s = (.ok ⟨⟩, ⟨s.files, s.printed ++ [p]⟩) := rfl

theorem outcome_within (context : Context) (a : Action α) (s : Session) :
    outcome (within context a) s =
      ((outcome a s).1.mapError (.within context), (outcome a s).2) := by
  rw [within, outcome_tryCatch]
  split <;> simp [*, Except.mapError]

theorem outcome_within_ok_iff (context : Context) {a : Action α} {s s' : Session} {x : α} :
    outcome (within context a) s = (.ok x, s') ↔ outcome a s = (.ok x, s') := by
  rw [outcome_within]
  obtain ⟨r, u⟩ := outcome a s
  cases r <;> simp [Except.mapError]

end Action

namespace Database

variable {α : Type}

theorem outcome_onFiles (o : Opening α) (s : Session) :
    outcome (onFiles o) s =
      ((outcome o s.files).1.mapError .database, ⟨(outcome o s.files).2, s.printed⟩) := by
  have hrun : (ExceptT.run o).run s.files = outcome o s.files := rfl
  rw [onFiles, outcome_bind, outcome_get]
  dsimp only
  rw [hrun]
  obtain ⟨r, t⟩ := outcome o s.files
  cases r <;> rfl

theorem outcome_onFiles_ok_iff {o : Opening α} {s s' : Session} {a : α} :
    outcome (onFiles o) s = (.ok a, s') ↔
      outcome o s.files = (.ok a, s'.files) ∧ s'.printed = s.printed := by
  rw [outcome_onFiles]
  obtain ⟨files', printed'⟩ := s'
  obtain ⟨r, t⟩ := outcome o s.files
  cases r <;> simp [Except.mapError, and_assoc, eq_comm]

@[simp] theorem outcome_answer (a : Except Fault α) (s : Session) :
    outcome (answer a) s = (a.mapError .database, s) := by
  cases a <;> rfl

end Database

/-! ## Names of databases -/

/-- What is asked for where a file may be made, and where it may not. -/
inductive AccessMode.Reopens : AccessMode → AccessMode → Prop
  | same (mode : AccessMode) : Reopens mode mode
  | existing : Reopens .create .existing

namespace DatabaseRequest

/-- Whether a name tells after `file:` how the database is opened. -/
def IsUri (name : String) : Prop := "file:".toList <+: name.toList

instance (name : String) : Decidable (IsUri name) :=
  inferInstanceAs (Decidable (_ <+: _))

/-- What is asked for by a path alone. -/
def ofPath (mode : AccessMode) (path : String) : DatabaseRequest :=
  ⟨if isNoFile path then none else some path, mode, false, true, none⟩

theorem ofName_eq {name : String} (h : ¬IsUri name) (mode : AccessMode) :
    ofName mode name =
      match name.toByteArray.toList.findIdx? (· == 0) with
      | some place => .error (.zeroByte place)
      | none => .ok (ofPath mode name) := by
  unfold ofName
  split
  · simp [*]
  · rename_i hname
    exact absurd (by rw [IsUri, hname]; exact ⟨_, rfl⟩) h
  · rename_i hname
    exact absurd (by rw [IsUri, hname]; exact ⟨_, rfl⟩) h
  · simp [*, ofPath]

/-- A path that can be opened in one mode is a path in all modes. -/
theorem ofName_congr {name : String} (h : ¬IsUri name) {mode : AccessMode}
    {request : DatabaseRequest} (hrequest : ofName mode name = .ok request) :
    request = ofPath mode name ∧ ∀ mode, ofName mode name = .ok (ofPath mode name) := by
  rw [ofName_eq h] at hrequest
  split at hrequest
  · cases hrequest
  · rename_i hnone
    refine ⟨(Except.ok.inj hrequest).symm, fun mode => ?_⟩
    rw [ofName_eq h, hnone]

/-- A database is opened to be changed. -/
def IsGiven (given : AccessMode) : Prop := given = .create ∨ given = .existing

/-- Whichever way the database `name` is opened to be changed, the request is made, but for its
mode. -/
def AskedBy (request : DatabaseRequest) (name : String) : Prop :=
  ∀ given, IsGiven given → ∃ mode, mode ≠ .readOnly ∧ ofName given name = .ok { request with mode }

theorem modeAfter_reopens {given given' mode mode' : AccessMode} (hgiven : given.Reopens given')
    {options : List (String × String)} (h : modeAfter given options = .ok mode)
    (h' : modeAfter given' options = .ok mode') : mode.Reopens mode' := by
  fun_induction modeAfter given options generalizing given' with
  | case1 given =>
    obtain rfl := Except.ok.inj h
    obtain rfl := Except.ok.inj h'
    exact hgiven
  | case2 given value options hvalue ih =>
    rw [modeAfter, if_pos hvalue] at h'
    exact ih hgiven h h'
  | case3 => cases h
  | case4 => cases h
  | case5 given value options asked hasked hallows ih =>
    rw [modeAfter, hasked] at h'
    simp only at h'
    split at h'
    · exact ih (.same asked) h h'
    · cases h'
  | case6 => cases h
  | case7 given option options hcache hmode ih =>
    rw [modeAfter] at h'
    · exact ih hgiven h h'
    · exact hcache
    · exact hmode

theorem ofRest_reopens {given given' : AccessMode} (hgiven : given.Reopens given') {s : List Char}
    {request request' : DatabaseRequest} (h : ofRest given s = .ok request)
    (h' : ofRest given' s = .ok request') :
    ∃ mode, request.mode.Reopens mode ∧ request' = { request with mode } := by
  unfold ofRest at h h'
  extract_lets s path options at h
  extract_lets at h'
  cases hmode : modeAfter given options with
  | error fault =>
    rw [hmode] at h
    cases h
  | ok mode =>
    cases hmode' : modeAfter given' options with
    | error fault =>
      rw [hmode'] at h'
      cases h'
    | ok mode' =>
      rw [hmode] at h
      rw [hmode'] at h'
      have hreopens := modeAfter_reopens hgiven hmode hmode'
      simp only [bind, Except.bind] at h h'
      split at h
      · cases h
      · rename_i canLog hsystem
        rw [hsystem] at h'
        obtain rfl := Except.ok.inj h
        obtain rfl := Except.ok.inj h'
        refine ⟨mode', hreopens, ?_⟩
        cases hreopens with
        | same => rfl
        | existing => simp

theorem ofName_reopens {name : String} {request request' : DatabaseRequest}
    (h : ofName .create name = .ok request) (h' : ofName .existing name = .ok request') :
    ∃ mode, request.mode.Reopens mode ∧ request' = { request with mode } := by
  by_cases huri : IsUri name
  · unfold ofName at h h'
    split at h
    · cases h
    · rename_i hzero hname
      rw [hzero, hname] at h'
      simp only at h h'
      split at h
      · rename_i hmachine
        rw [if_pos hmachine] at h'
        exact ofRest_reopens .existing h h'
      · cases h
    · rename_i hzero hname
      rw [hzero, hname] at h'
      simp only at h'
      exact ofRest_reopens .existing h h'
    · rename_i hnot
      obtain ⟨s, hs⟩ := huri
      exact (hnot s hs.symm).elim
  · obtain ⟨rfl, hpath⟩ := ofName_congr huri h
    obtain rfl := Except.ok.inj ((hpath .existing).symm.trans h')
    exact ⟨.existing, .existing, rfl⟩

/-- A database that may be made asks for the same, but for the mode, where it may not. -/
theorem ofName_of_isGiven {name : String} {request request' : DatabaseRequest} {given : AccessMode}
    (hgiven : IsGiven given) (h : ofName .create name = .ok request) (hmode : request.mode ≠ .readOnly)
    (h' : ofName given name = .ok request') :
    ∃ mode, mode ≠ .readOnly ∧ request' = { request with mode } := by
  rcases hgiven with rfl | rfl
  · obtain rfl := Except.ok.inj (h.symm.trans h')
    exact ⟨request.mode, hmode, rfl⟩
  · obtain ⟨mode, hreopens, rfl⟩ := ofName_reopens h h'
    refine ⟨mode, ?_, rfl⟩
    generalize request.mode = given at hmode hreopens
    cases hreopens with
    | same => exact hmode
    | existing => decide

/-- What the name of a database that is opened in both ways asks for. -/
theorem askedBy {name : String} {request request' : DatabaseRequest}
    (h : ofName .create name = .ok request) (hmode : request.mode ≠ .readOnly)
    (h' : ofName .existing name = .ok request') :
    request.AskedBy name ∧ request'.path = request.path ∧
      request'.permissionsOf = request.permissionsOf := by
  obtain ⟨mode', hmode', rfl⟩ := ofName_of_isGiven (Or.inr rfl) h hmode h'
  refine ⟨?_, rfl, rfl⟩
  rintro given (rfl | rfl)
  · exact ⟨request.mode, hmode, h⟩
  · exact ⟨mode', hmode', h'⟩

end DatabaseRequest

end RoutineParams
