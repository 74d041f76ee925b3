import RoutineParams.Proofs.Holdings

/-!
# Files that have what lies beside them

A file holds what its content does once nothing is left to be made of it: the journal beside it takes
nothing back, and the changes in its log are there. Then the files beside may go.

    CaughtUp t path → t.held? path is what the content of the file holds          (CaughtUp.held?)
    CaughtUp t path → the log can be removed                           (CaughtUp.held?_eraseBeside)
-/

namespace RoutineParams

variable {dir path : List String} {last : String} {t : FileTree}

namespace Opening

/-! ## Definitions -/

/-- The log beside a file has no changes. -/
def LacksLog (t : FileTree) (path : List String) : Prop :=
  ∀ content : Content, content.withLog (t.content? (Companion.log.path path)) = content

/-- The journal beside a file takes nothing back. -/
def LacksJournal (t : FileTree) (path : List String) : Prop :=
  ∀ content : Content, content.withJournal (t.content? (Companion.journal.path path)) = content

/-- The file at a path has the changes in the log beside it, and the journal takes none back. -/
structure CaughtUp (t : FileTree) (path : List String) : Prop where
  lacksJournal : LacksJournal t path
  hasLog : ∀ content, t.content? path = some content →
    content.withLog (t.content? (Companion.log.path path)) = content

/-! ## Lemmas: what lies beside a file -/

theorem LacksLog.of_beside (h : t.beside path .log = .nothing) : LacksLog t path := by
  intro content
  unfold FileTree.beside at h
  unfold FileTree.content?
  split at h
  · rename_i hnode
    rw [hnode, Content.withLog_none]
  · cases h
  · rename_i log hnode
    rw [hnode]
    cases log with
    | database file => exact Content.withLog_of_database content file
    | bytes data =>
      refine Content.withLog_of_short ?_ content
      have hnone : data[0]? = none := by
        cases hfirst : data[0]? with
        | none => rfl
        | some first => simp [Content.toBytes, hfirst] at h
      have hsize : data.size = 0 := by simpa using hnone
      rw [hsize]
      decide

/-- A journal without its mark takes nothing back. -/
theorem LacksJournal.of_isSettled (h : IsSettled t path) : LacksJournal t path := by
  intro content
  unfold IsSettled FileTree.beside at h
  unfold FileTree.content?
  split at h
  · rename_i hnode
    rw [hnode]
    rfl
  · rename_i hnode
    rw [hnode]
    rfl
  · rename_i journal hnode
    rw [hnode]
    refine Content.withJournal_of_head (fun hfirst => ?_) content
    rw [hfirst] at h
    exact absurd h (by decide)

theorem content?_eraseBeside (t : FileTree) (c : Companion) :
    (t.eraseBeside (dir ++ [last]) c).content? (dir ++ [last]) = t.content? (dir ++ [last]) :=
  FileTree.content?_congr (FileTree.node?_eraseBeside t c)

theorem content?_eraseBeside_self (t : FileTree) (c : Companion) :
    (t.eraseBeside (dir ++ [last]) c).content? (c.path (dir ++ [last])) = none := by
  by_cases hdirectory : t.IsDirectory (c.path (dir ++ [last]))
  · rw [FileTree.eraseBeside, if_pos ((FileTree.beside_eq_directory_iff ..).2 hdirectory),
      FileTree.content?_of_isDirectory hdirectory]
  · rw [FileTree.content?, FileTree.node?_eraseBeside_self hdirectory]

theorem content?_eraseBeside_of_ne (t : FileTree) {c c' : Companion} (hc : c ≠ c') :
    (t.eraseBeside (dir ++ [last]) c).content? (c'.path (dir ++ [last])) =
      t.content? (c'.path (dir ++ [last])) :=
  FileTree.content?_congr (FileTree.node?_eraseBeside_of_ne t hc)

theorem content?_beside_put (t : FileTree) (c : Companion) (n : Node) :
    (t.put (dir ++ [last]) n).content? (c.path (dir ++ [last])) =
      t.content? (c.path (dir ++ [last])) :=
  FileTree.content?_congr (FileTree.node?_beside_put t c n)

/-! ## Lemmas: what a file holds -/

/-- A file without changes in its log holds what its journal leaves. -/
theorem LacksLog.held? (h : LacksLog t path) :
    t.held? path = (((t.content? path).getD (.bytes .empty)).withJournal
      (t.content? (Companion.journal.path path))).held? := by
  rw [FileTree.held?, FileTree.settle, h]

theorem LacksLog.caughtUp (h : LacksLog t path) (hjournal : LacksJournal t path) :
    CaughtUp t path := ⟨hjournal, fun content _ => h content⟩

/-- A file that has the changes in its log holds what it does without it. -/
theorem CaughtUp.held? (h : CaughtUp t path) :
    t.held? path = ((t.content? path).getD (.bytes .empty)).held? := by
  rw [FileTree.held?]
  cases hcontent : t.content? path with
  | none => rw [Option.getD_none, FileTree.settle_of_isBlank rfl]
  | some content =>
    rw [Option.getD_some, FileTree.settle, h.lacksJournal, h.hasLog content hcontent]

/-- Where the journal takes nothing back, a database that was opened is what its file holds. -/
theorem LacksJournal.held?_of_database (h : LacksJournal t path) {file : DatabaseFile}
    (hcontent : t.content? path = some (.database file)) :
    t.held? path = some (file.marked false) := by
  rw [FileTree.held?, hcontent, Option.getD_some, FileTree.settle, h, Content.withLog_database,
    Content.held?_database]

theorem lacksJournal_eraseBeside (t : FileTree) :
    LacksJournal (t.eraseBeside (dir ++ [last]) .journal) (dir ++ [last]) := by
  intro content
  rw [content?_eraseBeside_self, Content.withJournal_none]

theorem LacksJournal.eraseBeside (h : LacksJournal t (dir ++ [last])) (c : Companion) :
    LacksJournal (t.eraseBeside (dir ++ [last]) c) (dir ++ [last]) := by
  intro content
  by_cases hc : c = .journal
  · rw [hc, lacksJournal_eraseBeside]
  · rw [content?_eraseBeside_of_ne t hc, h]

theorem LacksJournal.put (h : LacksJournal t (dir ++ [last])) (n : Node) :
    LacksJournal (t.put (dir ++ [last]) n) (dir ++ [last]) := by
  intro content
  rw [content?_beside_put, h]

theorem LacksLog.eraseBeside (h : LacksLog t (dir ++ [last])) {c : Companion} (hc : c ≠ .log) :
    LacksLog (t.eraseBeside (dir ++ [last]) c) (dir ++ [last]) := by
  unfold LacksLog
  rw [content?_eraseBeside_of_ne t hc]
  exact h

theorem lacksLog_eraseBeside (t : FileTree) :
    LacksLog (t.eraseBeside (dir ++ [last]) .log) (dir ++ [last]) := by
  intro content
  rw [content?_eraseBeside_self, Content.withLog_none]

theorem CaughtUp.eraseBeside (h : CaughtUp t (dir ++ [last])) {c : Companion} (hc : c ≠ .log) :
    CaughtUp (t.eraseBeside (dir ++ [last]) c) (dir ++ [last]) := by
  refine ⟨h.lacksJournal.eraseBeside c, ?_⟩
  rw [content?_eraseBeside, content?_eraseBeside_of_ne t hc]
  exact h.hasLog

/-- A journal that takes nothing back may go, and so may the index of a log. -/
theorem LacksJournal.held?_eraseBeside (h : LacksJournal t (dir ++ [last])) {c : Companion}
    (hc : c ≠ .log) :
    (t.eraseBeside (dir ++ [last]) c).held? (dir ++ [last]) = t.held? (dir ++ [last]) := by
  rw [FileTree.held?, FileTree.held?, FileTree.settle, FileTree.settle, h.eraseBeside c, h,
    content?_eraseBeside, content?_eraseBeside_of_ne t hc]

/-- A log may go whose changes the file has. -/
theorem CaughtUp.held?_eraseBeside (h : CaughtUp t (dir ++ [last])) :
    (t.eraseBeside (dir ++ [last]) .log).held? (dir ++ [last]) = t.held? (dir ++ [last]) := by
  have hcaught := (lacksLog_eraseBeside t).caughtUp (h.lacksJournal.eraseBeside .log)
  rw [hcaught.held?, h.held?, content?_eraseBeside]

end Opening

/-- A fit file holds what is in it. -/
theorem Fit.held? {canLog : Bool} {file : DatabaseFile} (h : Fit canLog t path file) :
    t.held? path = some (file.marked false) := by
  have hjournal := Opening.LacksJournal.of_isSettled h.tidy.isSettled
  exact hjournal.held?_of_database (by rw [FileTree.content?, h.node])

end RoutineParams
