import RoutineParams.Proofs.Openings

/-!
# Fit files

A file that was opened and changed is fit: it holds its tables, and beside it lies no change that was
left half done, nor anything in the way of the next one. A fit file can be opened again, which leaves
all files as they are, and what is written to it leaves it fit. All this is so whether or not changes
are first written to a log.

    outcome (openContent (changing canLog) loc content) t = (.ok c, t') → c.canWrite →
      Opened canLog t' loc c.file                                        (opened_of_openContent)
    Fit canLog t loc file → outcome (openContent (changing canLog) loc (.database file)) t =
      (.ok ⟨file, true, false⟩, t)                                          (openContent_of_fit)
-/

namespace RoutineParams

open Storage (Fault Image)

/-! ## Fit files -/

/-- Nothing lies at a place beside a file, and a file can be made there. -/
structure Companion.IsFree (c : Companion) (t : FileTree) (path : List String) : Prop where
  none : t.node? (c.path path) = none
  length : ((c.path path).getLast?.getD "").utf8ByteSize ≤ FileTree.maxNameLength

/-- What lies beside a file between two changes: nothing that the next one makes there, nor a log
where none is kept, nor a change that was left half done. -/
inductive Tidy (t : FileTree) (path : List String) : Bool → Prop
  | logged : Opening.IsSettled t path → (∀ c : Companion, c ≠ .journal → c.IsFree t path) →
      Tidy t path true
  | unlogged : Companion.journal.IsFree t path → t.beside path .log = .nothing →
      Tidy t path false

/-- The database file at `loc` holds its tables and says whether its changes are logged, and it is
tidy beside it. -/
structure Fit (canLog : Bool) (t : FileTree) (loc : List String) (file : DatabaseFile) :
    Prop where
  node : t.node? loc = some (.file (.database file))
  logged : file.image.logged = canLog
  tidy : Tidy t loc canLog

/-- A database file that was opened, and is fit if its changes are logged. -/
structure Opened (canLog : Bool) (t : FileTree) (loc : List String) (file : DatabaseFile) :
    Prop where
  node : t.node? loc = some (.file (.database file))
  logged : file.image.logged = canLog
  tidy : canLog = true → Tidy t loc true
  log : canLog = false → t.beside loc .log = .nothing

namespace Companion

variable {dir : List String} {last : String} {t : FileTree} {path : List String} {c : Companion}

theorem length_path (c : Companion) (dir : List String) (last : String) :
    ((c.path (dir ++ [last])).getLast?.getD "").utf8ByteSize =
      last.utf8ByteSize + c.suffix.utf8ByteSize := by
  rw [path_append, List.getLast?_concat, Option.getD_some, String.utf8ByteSize_append]

/-- The names of the log and its index are the shortest. -/
theorem length_path_le (hc : c ≠ .journal) (c' : Companion) (dir : List String) (last : String) :
    ((c.path (dir ++ [last])).getLast?.getD "").utf8ByteSize ≤
      ((c'.path (dir ++ [last])).getLast?.getD "").utf8ByteSize := by
  rw [length_path, length_path]
  refine Nat.add_le_add_left ?_ _
  cases c with
  | journal => exact absurd rfl hc
  | log => cases c' <;> decide
  | logIndex => cases c' <;> decide

theorem IsFree.canMakeBeside (h : c.IsFree t path) : t.canMakeBeside path c = true := by
  rw [FileTree.canMakeBeside, FileTree.beside_of_none h.none]
  simpa using h.length

theorem IsFree.put (h : c.IsFree t (dir ++ [last])) (n : Node) :
    c.IsFree (t.put (dir ++ [last]) n) (dir ++ [last]) :=
  ⟨(FileTree.node?_beside_put t c n).trans h.none, h.length⟩

end Companion

namespace Tidy

variable {canLog : Bool} {dir : List String} {last : String} {t : FileTree} {path : List String}

theorem isSettled (h : Tidy t path canLog) : Opening.IsSettled t path := by
  cases h with
  | logged hsettled _ => exact hsettled
  | unlogged hfree _ => exact Or.inl (FileTree.beside_of_none hfree.none)

theorem log (h : Tidy t path canLog) : t.beside path .log = .nothing := by
  cases h with
  | logged _ hfree => exact FileTree.beside_of_none (hfree .log (by simp)).none
  | unlogged _ hlog => exact hlog

theorem put (h : Tidy t (dir ++ [last]) canLog) (n : Node) :
    Tidy (t.put (dir ++ [last]) n) (dir ++ [last]) canLog := by
  have hbeside : ∀ c, (t.put (dir ++ [last]) n).beside (dir ++ [last]) c =
      t.beside (dir ++ [last]) c := fun c => FileTree.beside_congr (FileTree.node?_beside_put t c n)
  cases h with
  | logged hsettled hfree =>
    refine .logged ?_ fun c hc => (hfree c hc).put n
    rwa [Opening.IsSettled, hbeside]
  | unlogged hfree hlog => exact .unlogged (hfree.put n) ((hbeside .log).trans hlog)

end Tidy

theorem Fit.opened {canLog : Bool} {t : FileTree} {loc : List String} {file : DatabaseFile}
    (h : Fit canLog t loc file) : Opened canLog t loc file := by
  obtain ⟨hnode, hlogged, htidy⟩ := h
  exact ⟨hnode, hlogged, fun hcan => hcan ▸ htidy, fun _ => htidy.log⟩

namespace Opening

variable {canLog : Bool} {dir : List String} {last : String} {t t' : FileTree}

theorem isSettled_of_alters (h : Alters canLog dir last t t')
    (hsettled : IsSettled t (dir ++ [last])) : IsSettled t' (dir ++ [last]) := by
  rcases h.node?_beside (c := .journal) (fun h => by cases h) with hsame | hnone
  · rwa [IsSettled, FileTree.beside_congr hsame]
  · exact Or.inl (FileTree.beside_of_none hnone)

/-- A log whose index is no directory is removed when it is closed. -/
theorem closeLog_eq (hindex : ¬t.IsDirectory (Companion.logIndex.path (dir ++ [last]))) :
    closeLog (changing canLog) (dir ++ [last]) t =
      (t.eraseBeside (dir ++ [last]) .log).eraseBeside (dir ++ [last]) .logIndex := by
  rw [← FileTree.beside_eq_directory_iff] at hindex
  rw [closeLog, if_neg hindex]
  rfl

theorem node?_closeLog {c : Companion} (hc : c ≠ .journal)
    (hlog : ¬t.IsDirectory (Companion.log.path (dir ++ [last])))
    (hindex : ¬t.IsDirectory (Companion.logIndex.path (dir ++ [last]))) :
    (closeLog (changing canLog) (dir ++ [last]) t).node? (c.path (dir ++ [last])) = none := by
  rw [closeLog_eq hindex]
  cases c with
  | journal => exact absurd rfl hc
  | log =>
    rw [FileTree.node?_eraseBeside_of_ne _ (by simp)]
    exact FileTree.node?_eraseBeside_self hlog
  | logIndex =>
    have herased : Alters false dir last t _ := .eraseBeside t .log
    exact FileTree.node?_eraseBeside_self (herased.not_isDirectory_beside hindex)

namespace Stages

variable {hasLog usesLog : Bool} {content₀ content : Content} {c : Connection} {t₁ t₂ t₃ t₄ : FileTree}

theorem alters (h : Stages canLog hasLog usesLog dir last content₀ content c t t₁ t₂ t₃ t₄ t') :
    Alters canLog dir last t t₁ ∧ Alters canLog dir last t₁ t₂ ∧
      Alters canLog dir last t₂ t₃ ∧ Alters canLog dir last t₃ t₄ := by
  obtain ⟨content', -, hopen⟩ := h.wasOpened
  exact ⟨(confined_rollBack _ _).alters h.rolledBack, (confined_findLog _ _).alters h.foundLog,
    h.caughtUp, (confined_openWith _ _ _).alters hopen⟩

/-- Beside a file without pages there is no log. -/
theorem hasLog_of_isBlank (h : Stages canLog hasLog usesLog dir last content₀ content c t t₁ t₂ t₃ t₄ t')
    (hblank : content.isBlank = true) : hasLog = false := by
  obtain ⟨-, hlog, -⟩ := of_findLog h.foundLog
  cases hhas : hasLog with
  | false => rfl
  | true => cases (hlog hhas).symm.trans hblank

/-- Nor is one in use. -/
theorem usesLog_of_isBlank (h : Stages canLog hasLog usesLog dir last content₀ content c t t₁ t₂ t₃ t₄ t')
    (hblank : content.isBlank = true) : usesLog = false := by
  rw [h.uses, Bool.or_eq_false_iff]
  constructor
  · exact h.hasLog_of_isBlank hblank
  · cases hlogged : isLogged content with
    | false => rfl
    | true => cases (isBlank_of_isLogged hlogged).symm.trans hblank

theorem opened_unlogged (h : Stages false hasLog usesLog dir last content₀ content c t t₁ t₂ t₃ t₄ t')
    (hwrite : c.canWrite = true) : Opened false t' (dir ++ [last]) c.file := by
  obtain ⟨-, -, hcaught, hopened⟩ := h.alters
  obtain ⟨content', -, hopen⟩ := h.wasOpened
  obtain ⟨-, -, -, hnode, hlogged, -⟩ := of_openWith hopen hwrite
  obtain ⟨-, -, hunlogged⟩ := of_findLog h.foundLog
  obtain ⟨-, hnothing⟩ := hunlogged rfl
  have huses : usesLog = false := by
    cases huses : usesLog with
    | false => rfl
    | true => cases (h.canUse huses).1
  have hclosed : t' = t₄ := by rw [h.closed, huses]; rfl
  subst hclosed
  rw [huses] at hlogged
  refine ⟨hnode, hlogged, fun h => (by cases h), fun _ => ?_⟩
  rcases (hcaught.trans hopened).node?_beside (c := .log) (fun _ => rfl) with hsame | hnone
  · exact (FileTree.beside_congr hsame).trans hnothing
  · exact FileTree.beside_of_none hnone

theorem opened_logged (h : Stages true hasLog usesLog dir last content₀ content c t t₁ t₂ t₃ t₄ t')
    (hloc : ¬t.IsDirectory (dir ++ [last])) (hwrite : c.canWrite = true) :
    Opened true t' (dir ++ [last]) c.file := by
  obtain ⟨hrolled, hfound, hcaught, hopened⟩ := h.alters
  have halters := (hfound.trans hcaught).trans hopened
  obtain ⟨content', -, hopen⟩ := h.wasOpened
  obtain ⟨-, hjournal, hindex, hnode, hlogged, -⟩ := of_openWith hopen hwrite
  rw [canLog_changing, Bool.or_true] at hindex hlogged
  have hnotIndex := hindex rfl
  have hnotLog := halters.not_isDirectory_beside (of_findLog h.foundLog).1
  have hclosed : t' = closeLog (changing true) (dir ++ [last]) t₄ := by
    have hlast : isLoggedAt t₄ (dir ++ [last]) = true := by rw [isLoggedAt, hnode]; exact hlogged
    rw [h.closed, if_pos (by simp [hlast])]
  have hsettled : IsSettled t₁ (dir ++ [last]) := by
    refine (of_rollBack h.rolledBack).resolve_right ?_
    rintro ⟨hblank, hdirectory⟩
    -- where no log is in use a journal could be made
    have hcan := hjournal rfl (h.usesLog_of_isBlank hblank)
    refine (of_canMakeBeside hcan).1 ?_
    exact ((hfound.trans hcaught).isDirectory_beside_iff (hrolled.not_isDirectory hloc) _).2
      hdirectory
  have hlength : ∀ c : Companion, c ≠ .journal →
      ((c.path (dir ++ [last])).getLast?.getD "").utf8ByteSize ≤ FileTree.maxNameLength := by
    intro c hc
    have hle := fun c' => Companion.length_path_le hc c' dir last
    cases huses : usesLog with
    | true => exact Nat.le_trans (hle .log) (of_canMakeBeside (h.canUse huses).2).2
    | false => exact Nat.le_trans (hle .journal) (of_canMakeBeside (hjournal rfl huses)).2
  subst hclosed
  refine ⟨?_, hlogged, fun _ => .logged ?_ fun c hc => ⟨?_, hlength c hc⟩, fun h => (by cases h)⟩
  · rw [closeLog_eq hnotIndex, FileTree.node?_eraseBeside, FileTree.node?_eraseBeside, hnode]
  · exact isSettled_of_alters (halters.trans (alters_closeLog t₄)) hsettled
  · exact node?_closeLog hc hnotLog hnotIndex

end Stages

/-- **A file that was opened to be changed** holds its tables, and is fit if its changes are
logged. -/
theorem opened_of_openContent {content : Content} {c : Connection}
    (hloc : ¬t.IsDirectory (dir ++ [last]))
    (h : outcome (openContent (changing canLog) (dir ++ [last]) content) t = (.ok c, t'))
    (hwrite : c.canWrite = true) : Opened canLog t' (dir ++ [last]) c.file := by
  obtain ⟨hasLog, usesLog, _, t₁, t₂, t₃, t₄, hstages⟩ := stages_of_openContent h
  cases canLog with
  | false => exact hstages.opened_unlogged hwrite
  | true => exact hstages.opened_logged hloc hwrite

/-! ## Opening fit files -/

variable {file : DatabaseFile}

theorem rollBack_of_fit (h : Fit canLog t (dir ++ [last]) file) :
    outcome (rollBack (changing canLog) (dir ++ [last]) (.database file)) t =
      (.ok (.database file), t) := by
  rw [rollBack, outcome_bind, outcome_get]
  simp only
  rcases h.tidy.isSettled with hbeside | hbeside
  · rw [hbeside]
    rfl
  · rw [hbeside]
    rfl

theorem findLog_of_fit (h : Fit canLog t (dir ++ [last]) file) :
    outcome (findLog (changing canLog) (dir ++ [last]) false) t = (.ok false, t) := by
  rw [findLog, outcome_bind, outcome_get]
  simp only [h.tidy.log]
  rfl

theorem openWith_of_fit (h : Fit canLog t (dir ++ [last]) file) :
    outcome (openWith (changing canLog) canLog (dir ++ [last]) (.database file)) t =
      (.ok ⟨file, true, false⟩, t) := by
  have hfile : ({ file with image := { file.image with logged := canLog } } : DatabaseFile) =
      file := by
    obtain ⟨-, rfl, -⟩ := h
    rfl
  have hput : t.put (dir ++ [last]) (.file (.database file)) = t := by
    rw [FileTree.put, Node.put_of_at? h.node]
  obtain ⟨-, -, htidy⟩ := h
  cases htidy with
  | unlogged _ _ => simp [openWith, outcome_bind, find, hfile, hput, Except.map]
  | logged _ hfree =>
    have hindex := FileTree.beside_of_none (hfree .logIndex (by simp)).none
    simp [openWith, outcome_bind, find, hindex, hfile, hput, Except.map]

/-- **A fit file can be opened**, which leaves all files as they are. -/
theorem openContent_of_fit (h : Fit canLog t (dir ++ [last]) file) :
    outcome (openContent (changing canLog) (dir ++ [last]) (.database file)) t =
      (.ok ⟨file, true, false⟩, t) := by
  have hroll := rollBack_of_fit h
  have hlog := findLog_of_fit h
  have hopen := openWith_of_fit h
  obtain ⟨hnode, hlogged, htidy⟩ := h
  cases htidy with
  | unlogged hfree hnothing =>
    simp [openContent, outcome_bind, outcome_tryCatch, Content.isBlank, isLogged, hlogged, hroll, hlog,
      hopen, Except.map]
  | logged hsettled hfree =>
    have hclose : closeLog (changing true) (dir ++ [last]) t = t := by
      rw [closeLog_eq (FileTree.not_isDirectory_of_none (hfree .logIndex (by simp)).none),
        FileTree.eraseBeside_of_none hnode (hfree .log (by simp)).none,
        FileTree.eraseBeside_of_none hnode (hfree .logIndex (by simp)).none]
    simp [openContent, outcome_bind, outcome_tryCatch, Content.isBlank, isLogged, hlogged, hroll, hlog,
      (hfree .log (by simp)).canMakeBeside, hopen, hclose, Except.map]

/-- **What is written to a fit file leaves it fit**, and nothing else changes. -/
theorem write_of_fit (h : Fit canLog t (dir ++ [last]) file) {file' : DatabaseFile}
    (hlogged : file'.image.logged = canLog) :
    outcome (write (dir ++ [last]) file') t =
        (.ok ⟨⟩, t.put (dir ++ [last]) (.file (.database file'))) ∧
      Fit canLog (t.put (dir ++ [last]) (.file (.database file'))) (dir ++ [last]) file' := by
  refine ⟨?_, FileTree.node?_put_self _ _ _, hlogged, h.tidy.put _⟩
  obtain ⟨hnode, -, htidy⟩ := h
  cases htidy with
  | logged _ _ => simp [write, hlogged]
  | unlogged hfree _ =>
    simp [write, hlogged, startJournal, outcome_bind, hfree.canMakeBeside,
      FileTree.eraseBeside_of_none hnode hfree.none]

/-- What is written to a file that was opened makes it fit. -/
theorem fit_of_write (h : Opened canLog t (dir ++ [last]) file) {file' : DatabaseFile}
    (hlogged : file'.image.logged = canLog) {u : Unit}
    (hwrite : outcome (write (dir ++ [last]) file') t = (.ok u, t')) :
    Fit canLog t' (dir ++ [last]) file' := by
  cases canLog with
  | true => 
    have hfit : Fit true t (dir ++ [last]) file := ⟨h.node, h.logged, h.tidy rfl⟩
    obtain ⟨hput, hfit'⟩ := write_of_fit hfit hlogged
    obtain ⟨-, rfl⟩ := Prod.mk.inj (hput.symm.trans hwrite)
    exact hfit'
  | false =>
    rw [write, if_pos (by simp [hlogged])] at hwrite
    obtain ⟨_, t₁, hjournal, hput⟩ := outcome_bind_ok hwrite
    obtain ⟨hcan, rfl⟩ := canMakeBeside_of_startJournal hjournal
    obtain ⟨hnot, hlength⟩ := of_canMakeBeside hcan
    cases hput
    have herased := FileTree.node?_eraseBeside_self hnot
    have hlog : (t.eraseBeside (dir ++ [last]) .journal).beside (dir ++ [last]) .log = .nothing :=
      (FileTree.beside_congr (FileTree.node?_eraseBeside_of_ne t (by simp))).trans (h.log rfl)
    exact ⟨FileTree.node?_put_self _ _ _, hlogged, .put (.unlogged ⟨herased, hlength⟩ hlog) _⟩

end Opening

end RoutineParams
