import RoutineParams.Proofs.Confinement

/-!
# Opening database files

A database file is opened in stages: a change that was left half done is taken back, a log is looked
for and taken over, the tables that the file lacks are made, and the log is closed. What is true
after each of them is told by where it ended.

    openContent succeeds → its stages do                               (stages_of_openContent)
    a connection that can write → the file was opened for that        (changing_of_openContent)
-/

namespace RoutineParams

open Storage (Fault Image)

namespace Opening

variable {canLog : Bool} {dir : List String} {last : String} {t t' : FileTree}

/-! ## Lemmas: what was found when a file was opened -/

theorem of_canMakeBeside {path : List String} {c : Companion} {t : FileTree}
    (h : t.canMakeBeside path c = true) : ¬t.IsDirectory (c.path path) ∧
      ((c.path path).getLast?.getD "").utf8ByteSize ≤ FileTree.maxNameLength := by
  rw [FileTree.canMakeBeside, Bool.and_eq_true, decide_eq_true_eq, decide_eq_true_eq] at h
  rwa [← FileTree.beside_eq_directory_iff]

/-- No change was left half done beside a file. -/
def IsSettled (t : FileTree) (path : List String) : Prop :=
  t.beside path .journal = .nothing ∨ t.beside path .journal = .file 0

theorem of_rollBack {content content' : Content}
    (h : outcome (rollBack (changing canLog) (dir ++ [last]) content) t = (.ok content', t')) :
    IsSettled t' (dir ++ [last]) ∨ content'.isBlank = true ∧
      t'.IsDirectory (Companion.journal.path (dir ++ [last])) := by
  have hfree : ∀ {u : FileTree},
      u.node? (Companion.journal.path (dir ++ [last])) = none → IsSettled u (dir ++ [last]) :=
    fun hnone => Or.inl (FileTree.beside_of_none hnone)
  rw [rollBack, outcome_bind, outcome_get] at h
  simp only at h
  split at h
  · rename_i hbeside
    cases h
    exact Or.inl (Or.inl hbeside)
  · rename_i hbeside
    split at h
    · rename_i hblank
      cases h
      exact Or.inr ⟨hblank, (FileTree.beside_eq_directory_iff ..).1 hbeside⟩
    · cases h
  · rename_i first hbeside
    have hnot : ¬t.IsDirectory (Companion.journal.path (dir ++ [last])) := by
      rw [← FileTree.beside_eq_directory_iff, hbeside]
      simp
    split at h
    · cases h
      exact Or.inl (hfree (FileTree.node?_eraseBeside_self hnot))
    split at h
    · rename_i hfirst
      cases h
      exact Or.inl (Or.inr (hfirst ▸ hbeside))
    · cases h
      refine Or.inl (hfree (FileTree.node?_eraseBeside_self ?_))
      rw [Companion.path_append] at hnot ⊢
      exact FileTree.not_isDirectory_put _ _ hnot

/-- A file without pages stays without. -/
theorem content_of_rollBack {a : Access} {path : List String} {content content' : Content}
    (hblank : content.isBlank = true)
    (h : outcome (rollBack a path content) t = (.ok content', t')) : content' = content := by
  rw [rollBack, outcome_bind, outcome_get] at h
  simp only [hblank, if_true] at h
  split at h
  · cases h
    rfl
  · cases h
    rfl
  · split at h <;> cases h <;> rfl

theorem of_findLog {isBlank hasLog : Bool}
    (h : outcome (findLog (changing canLog) (dir ++ [last]) isBlank) t = (.ok hasLog, t')) :
    ¬t.IsDirectory (Companion.log.path (dir ++ [last])) ∧ (hasLog = true → isBlank = false) ∧
      (canLog = false → hasLog = false ∧ t'.beside (dir ++ [last]) .log = .nothing) := by
  rw [findLog, outcome_bind, outcome_get] at h
  simp only at h
  split at h
  · rename_i hbeside
    rw [← FileTree.beside_eq_directory_iff, hbeside]
    cases h
    exact ⟨by simp, fun h => (by cases h), fun _ => ⟨rfl, hbeside⟩⟩
  · cases h
  · rename_i first hbeside
    have hnot : ¬t.IsDirectory (Companion.log.path (dir ++ [last])) := by
      rw [← FileTree.beside_eq_directory_iff, hbeside]
      simp
    refine ⟨hnot, ?_⟩
    cases isBlank with
    | true =>
      rw [if_pos rfl] at h
      cases h
      exact ⟨fun h => (by cases h), fun _ =>
        ⟨rfl, FileTree.beside_of_none (FileTree.node?_eraseBeside_self hnot)⟩⟩
    | false =>
      cases canLog with
      | true => exact ⟨fun _ => rfl, fun h => (by cases h)⟩
      | false => cases h

theorem canMakeBeside_of_startJournal {path : List String} {t t' : FileTree} {u : Unit}
    (h : outcome (startJournal path) t = (.ok u, t')) :
    t.canMakeBeside path .journal = true ∧ t' = t.eraseBeside path .journal := by
  rw [startJournal, outcome_bind, outcome_get] at h
  simp only at h
  split at h
  · cases h
    exact ⟨‹_›, rfl⟩
  · cases h

theorem logged_prepare {path : List String} {w : Except Fault Unit} {im : Image} {t t' : FileTree}
    {file : DatabaseFile} (h : outcome (prepare path w im) t = (.ok file, t')) :
    file.image.logged = im.logged := by
  have hkeeps : ((ExceptT.run (Image.prepare w)).run im).2.logged = im.logged :=
    Image.keepsLogged_prepare w im
  unfold prepare at h
  generalize (ExceptT.run (Image.prepare w)).run im = prepared at h hkeeps
  obtain ⟨result, prepared⟩ := prepared
  cases result with
  | error fault =>
    dsimp only at h
    split at h <;> split at h <;> cases h
  | ok _ =>
    dsimp only at h
    split at h <;> cases h <;> exact hkeeps

/-- What is true of a file that was opened to be changed: it holds its tables, says whether its
changes are logged, and no directory is in the way of the index of its log. -/
structure Written (logs : Bool) (path : List String) (t : FileTree) (c : Connection) : Prop where
  logIndex : logs = true → ¬t.IsDirectory (Companion.logIndex.path path)
  node : t.node? path = some (.file (.database c.file))
  logged : c.file.image.logged = logs
  isStuck : c.isStuck = false

theorem of_openWith {a : Access} {usesLog : Bool} {content : Content} {t t' : FileTree}
    {c : Connection} (h : outcome (openWith a usesLog (dir ++ [last]) content) t = (.ok c, t'))
    (hwrite : c.canWrite = true) :
    (a.canWrite = true ∧ a.isFixed = false) ∧
      (a.canLog = true → usesLog = false → t.canMakeBeside (dir ++ [last]) .journal = true) ∧
      Written (usesLog || a.canLog) (dir ++ [last]) t' c := by
  unfold openWith at h
  obtain ⟨found, t₁, hfound, h⟩ := outcome_bind_ok h
  rw [outcome_ofExcept] at hfound
  obtain ⟨-, rfl⟩ := Prod.mk.inj hfound
  extract_lets isFrozen canWrite switches logs rest switched at h
  have hrest : ∀ u {t₁}, outcome (rest u) t₁ = (.ok c, t') →
      canWrite = true ∧ Written logs (dir ++ [last]) t' c := by
    intro u t₁ h
    unfold rest at h
    obtain ⟨_, _, hget, h⟩ := outcome_bind_ok h
    cases hget
    extract_lets isStuck canWrite' done at h
    -- the last step says that the file can be written, and writes it
    have hdone : ∀ {file t₂}, (logs = true → t₂.IsDirectory (Companion.logIndex.path
          (dir ++ [last])) → isStuck = true) → file.image.logged = logs →
        outcome (done file) t₂ = (.ok c, t') →
        canWrite = true ∧ Written logs (dir ++ [last]) t' c := by
      intro file t₂ hindex hlogged h
      unfold done at h
      cases hcan : canWrite' with
      | false =>
        rw [if_neg (by simp [hcan])] at h
        cases h
        rw [hcan] at hwrite
        cases hwrite
      | true =>
        rw [if_pos hcan] at h
        cases h
        obtain ⟨hcan, hstuck⟩ := Bool.and_eq_true_iff.1 hcan
        rw [Bool.not_eq_true'] at hstuck
        refine ⟨hcan, fun hlogs => ?_, FileTree.node?_put_self _ _ _, hlogged, hstuck⟩
        have hwritten : Alters false dir last t₂ _ := .write (.database file) .refl
        refine hwritten.not_isDirectory_beside fun hdirectory => ?_
        rw [hindex hlogs hdirectory] at hstuck
        cases hstuck
    have hindex : logs = true → t₁.IsDirectory (Companion.logIndex.path (dir ++ [last])) →
        isStuck = true := by
      intro hlogs hdirectory
      rw [← FileTree.beside_eq_directory_iff] at hdirectory
      simp [isStuck, hlogs, hdirectory]
    split at h
    · exact hdone hindex rfl h
    · obtain ⟨file, t₂, hprepare, h⟩ := outcome_bind_ok h
      have halters : Alters false dir last t₁ t₂ := (confined_prepare _ _).alters hprepare
      refine hdone (fun hlogs hdirectory => hindex hlogs ?_) (logged_prepare hprepare) h
      exact Classical.byContradiction fun hnot => halters.not_isDirectory_beside hnot hdirectory
  have hcan : canWrite = true → a.canWrite = true ∧ a.isFixed = false := fun h => by
    simp only [canWrite, Bool.and_eq_true, Bool.not_eq_true'] at h
    exact h.1
  have hlogs : a.isFixed = false → logs = (usesLog || a.canLog) := by
    intro hfixed
    simp only [logs, switches, hfixed]
    cases usesLog <;> simp
  cases hswitches : switches with
  | false =>
    rw [if_neg (by simp [hswitches])] at h
    obtain ⟨hcanWrite, hwritten⟩ := hrest ⟨⟩ h
    refine ⟨hcan hcanWrite, fun hlog huses => ?_, hlogs (hcan hcanWrite).2 ▸ hwritten⟩
    simp [switches, hlog, huses, (hcan hcanWrite).2] at hswitches
  | true =>
    rw [if_pos hswitches] at h
    cases hcanWrite : canWrite with
    | false =>
      rw [if_pos (by simp [hcanWrite])] at h
      cases h
    | true =>
      rw [if_neg (by simp [hcanWrite])] at h
      obtain ⟨_, t₂, hjournal, h⟩ := outcome_bind_ok h
      obtain ⟨_, t₃, -, h⟩ := outcome_bind_ok h
      obtain ⟨-, hwritten⟩ := hrest ⟨⟩ h
      exact ⟨hcan hcanWrite, fun _ _ => (canMakeBeside_of_startJournal hjournal).1,
        hlogs (hcan hcanWrite).2 ▸ hwritten⟩

/-- The log is closed after the file was opened. -/
theorem of_openWith_then_close {a : Access} {usesLog : Bool} {path : List String}
    {content : Content} {close : Opening Unit} {t t' : FileTree} {c : Connection}
    (h : outcome (do
      let connection ← tryCatch (openWith a usesLog path content) fun fault => do
        close
        throw fault
      close
      return connection) t = (.ok c, t')) :
    ∃ t₁, outcome (openWith a usesLog path content) t = (.ok c, t₁) ∧
      outcome close t₁ = (.ok ⟨⟩, t') := by
  obtain ⟨connection, t₁, hopen, h⟩ := outcome_bind_ok h
  obtain ⟨_, t₂, hclose, h⟩ := outcome_bind_ok h
  cases h
  rw [outcome_tryCatch] at hopen
  split at hopen
  · rename_i hopened
    cases hopen
    exact ⟨t₁, hopened, hclose⟩
  · obtain ⟨_, _, -, hopen⟩ := outcome_bind_ok hopen
    cases hopen

theorem isBlank_of_isLogged {content : Content} (h : isLogged content = true) :
    content.isBlank = false := by
  cases content with
  | bytes data =>
    simp only [isLogged, Bool.and_eq_true, Bool.not_eq_true'] at h
    exact h.1.1
  | database file => rfl

/-- What opens a file in the end. -/
theorem exists_openWith_of_openContent {a : Access} {path : List String} {content : Content}
    {c : Connection} (h : outcome (openContent a path content) t = (.ok c, t')) :
    ∃ usesLog content' t₁ t₂, outcome (openWith a usesLog path content') t₁ = (.ok c, t₂) := by
  unfold openContent at h
  extract_lets rolled at h
  obtain ⟨content, t₁, h⟩ : ∃ content t₁, outcome (rolled content) t₁ = (.ok c, t') := by
    split at h
    · exact ⟨_, _, h⟩
    · obtain ⟨_, _, -, h⟩ := outcome_bind_ok h
      exact ⟨_, _, h⟩
  unfold rolled at h
  extract_lets found at h
  obtain ⟨hasLog, t₂, h⟩ : ∃ hasLog t₂, outcome (found hasLog) t₂ = (.ok c, t') := by
    split at h
    · exact ⟨_, _, h⟩
    · obtain ⟨_, _, -, h⟩ := outcome_bind_ok h
      exact ⟨_, _, h⟩
  unfold found at h
  extract_lets usesLog close caughtUp allowed at h
  obtain ⟨_, _, -, h⟩ := outcome_bind_ok h
  split at h
  · cases h
  obtain ⟨content, t₃, h⟩ : ∃ content t₃, outcome (caughtUp content) t₃ = (.ok c, t') := by
    unfold allowed at h
    split at h
    · obtain ⟨_, _, -, h⟩ := outcome_bind_ok h
      exact ⟨_, _, h⟩
    · exact ⟨_, _, h⟩
  obtain ⟨t₄, h, -⟩ := of_openWith_then_close h
  exact ⟨_, _, _, _, h⟩

/-- A file that can be changed was opened for that, and its log is in order. -/
theorem changing_of_openContent {a : Access} {content : Content} {c : Connection}
    (h : outcome (openContent a (dir ++ [last]) content) t = (.ok c, t'))
    (hwrite : c.canWrite = true) : a = changing a.canLog ∧ c.isStuck = false := by
  obtain ⟨usesLog, content', t₁, t₂, hopen⟩ := exists_openWith_of_openContent h
  obtain ⟨hcan, -, hwritten⟩ := of_openWith hopen hwrite
  obtain ⟨canWrite, isFixed, canLog⟩ := a
  obtain ⟨rfl, rfl⟩ : canWrite = true ∧ isFixed = false := hcan
  exact ⟨rfl, hwritten.isStuck⟩

/-! ## Lemmas: the stages -/

/-- The stages in which a file is opened to be changed: a change that was left half done is taken
back, a log is looked for and taken over, the file is opened, and its log is closed. -/
structure Stages (canLog hasLog usesLog : Bool) (dir : List String) (last : String)
    (content₀ content : Content) (c : Connection) (t t₁ t₂ t₃ t₄ t' : FileTree) : Prop where
  rolledBack : outcome (rollBack (changing canLog) (dir ++ [last]) content₀) t = (.ok content, t₁)
  foundLog : outcome (findLog (changing canLog) (dir ++ [last]) content.isBlank) t₁ =
    (.ok hasLog, t₂)
  uses : usesLog = (hasLog || isLogged content)
  canUse : usesLog = true → canLog = true ∧ t₂.canMakeBeside (dir ++ [last]) .log = true
  caughtUp : Alters canLog dir last t₂ t₃
  wasOpened : ∃ content', (hasLog = false → content' = content ∧ t₃ = t₂) ∧
    outcome (openWith (changing canLog) usesLog (dir ++ [last]) content') t₃ = (.ok c, t₄)
  closed : t' = if usesLog || canLog && isLoggedAt t₄ (dir ++ [last]) then
    closeLog (changing canLog) (dir ++ [last]) t₄ else t₄

theorem stages_of_openContent {content₀ : Content} {c : Connection}
    (h : outcome (openContent (changing canLog) (dir ++ [last]) content₀) t = (.ok c, t')) :
    ∃ hasLog usesLog content t₁ t₂ t₃ t₄,
      Stages canLog hasLog usesLog dir last content₀ content c t t₁ t₂ t₃ t₄ t' := by
  unfold openContent at h
  extract_lets rolled at h
  rw [if_neg (by simp)] at h
  obtain ⟨content, t₁, hroll, h⟩ := outcome_bind_ok h
  unfold rolled at h
  extract_lets found at h
  rw [if_neg (by simp)] at h
  obtain ⟨hasLog, t₂, hlog, h⟩ := outcome_bind_ok h
  unfold found at h
  extract_lets usesLog close caughtUp allowed at h
  obtain ⟨_, _, hget, h⟩ := outcome_bind_ok h
  cases hget
  split at h
  · cases h
  rename_i hcan
  obtain ⟨t₃, content', halters, hsame, h⟩ : ∃ t₃ content', Alters canLog dir last t₂ t₃ ∧
      (hasLog = false → content' = content ∧ t₃ = t₂) ∧
      outcome (caughtUp content') t₃ = (.ok c, t') := by
    unfold allowed at h
    split at h
    · rename_i hhas
      obtain ⟨content', t₃, hcatch, h⟩ := outcome_bind_ok h
      exact ⟨t₃, content', (confined_catchUp _ _).alters hcatch,
        fun hnot => absurd hhas (by simp [hnot]), h⟩
    · exact ⟨t₂, content, .refl, fun _ => ⟨rfl, rfl⟩, h⟩
  obtain ⟨t₄, hopen, hclose⟩ := of_openWith_then_close h
  rw [outcome_modify] at hclose
  exact ⟨hasLog, usesLog, content, t₁, t₂, t₃, t₄, hroll, hlog, rfl, fun h => by simpa [h] using hcan,
    halters, ⟨content', hsame, hopen⟩, by simpa using (Prod.mk.inj hclose).2.symm⟩

end Opening

end RoutineParams
