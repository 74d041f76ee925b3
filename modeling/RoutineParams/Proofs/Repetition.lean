import RoutineParams.Proofs.Elsewhere
import RoutineParams.Proofs.Unreadable

/-!
# What is done again

What is stored again leaves the same rows but for the times: the routines that are put again are
those that are there, the parameters that are taken out were the same, and rows of other databases
are not touched. A database that is named by a path that leads to its file can be opened again after
it was changed. A URI need not be: it can ask for what opening it has taken away.

    what is stored twice is stored as if it was stored once                  (sameRows_storeAgain)
    a database that is named by a path can be opened again                        (Usable.canOpen)
-/

namespace RoutineParams

/-! ## Definitions -/

/-- Two stores have the same rows, but for the times when parameters were stored. -/
def Store.SameRows (st st' : Store) : Prop :=
  st'.routines = st.routines ∧
    st'.parameters.map (Prod.map id ParameterRow.default) =
      st.parameters.map (Prod.map id ParameterRow.default)

/-- The file at `place`, if there is one, holds a store. -/
def FileTree.HoldsRows (t : FileTree) (place : Option (List String)) : Prop :=
  ∀ loc, place = some loc → ∃ st, t.HoldsAt loc st

/-- The database `name` can be opened. -/
def Session.CanOpen (s : Session) (mustExist : Bool) (name : String) : Prop :=
  ∃ d s', (Database.reopen mustExist name).result s = (.ok d, s')

/-- An action that is done again, after which the session was `s₁`, gives `x` and prints what was
printed since `s`; and the file at `place` has the same rows again, but for times. -/
def Session.Repeats {α : Type} (s s₁ : Session) (place : Option (List String)) (a : Action α)
    (x : α) : Prop :=
  ∃ s₂ pieces, a.result s₁ = (.ok x, s₂) ∧ s₁.printed = s.printed ++ pieces ∧
    s₂.printed = s₁.printed ++ pieces ∧
    ∀ loc, place = some loc → ∃ st₁ st₂, s₁.files.HoldsAt loc st₁ ∧ s₂.files.HoldsAt loc st₂ ∧
      st₁.SameRows st₂

variable {s s' s₁ s₂ u : Session} {loc : List String} {name db src : String}
  {t t' : FileTree} {d d' : Database} {st : Store} {m m' : Machine} {c : Config}
  {format format' : OutputFormat} {report : Report} {found : Option Report}

/-! ## Lemmas: what is stored twice -/

namespace Store

theorem SameRows.refl (st : Store) : st.SameRows st := ⟨rfl, rfl⟩

/-- Routines that are stored again are there. -/
theorem storeRoutines_storeRoutines (st : Store) (name : String) (rs : List Routine) :
    (st.storeRoutines name rs).storeRoutines name rs = st.storeRoutines name rs := by
  rw [storeRoutines, storeRoutines, SortedTable.putAll_putAll fun row hrow =>
    List.mem_map_of_mem hrow]

/-- Parameters that are stored again take the place of those that were stored before. -/
theorem storeParameters_storeParameters (st : Store) (now now' : Int64) (name : String)
    (ps ps' : List Parameter) :
    (st.storeParameters now name ps).storeParameters now' name ps' =
      st.storeParameters now' name ps' := by
  have hnone : ∀ row ∈ ps.map (parameterRow now name), (row.1.database != name) = false := by
    intro row hrow
    obtain ⟨p, -, rfl⟩ := List.mem_map.1 hrow
    simp [parameterRow]
  have hothers := @SortedTable.filter_putAll_of_not _ _ ParameterKey.cmp _
    (fun key => key.database != name) _ hnone
  rw [storeParameters, storeParameters, hothers, List.filter_filter]
  simp only [Bool.and_self]
  rfl

/-- When parameters were stored does not tell in other values. -/
theorem sameRows_storeParameters (st : Store) (now now' : Int64) (name : String)
    (ps : List Parameter) :
    (st.storeParameters now name ps).SameRows (st.storeParameters now' name ps) := by
  refine ⟨rfl, ?_⟩
  rw [storeParameters, storeParameters, SortedTable.map_putAll, SortedTable.map_putAll,
    List.map_map, List.map_map]
  rfl

/-- **What is stored twice** is stored as if it was stored once, but for the time. -/
theorem sameRows_storeAgain (st : Store) (now now' : Int64) (name : String) (rs : List Routine)
    (ps : List Parameter) :
    ((st.storeRoutines name rs).storeParameters now name ps).SameRows
      ((((st.storeRoutines name rs).storeParameters now name ps).storeRoutines name
        rs).storeParameters now' name ps) := by
  have hswap : ((st.storeRoutines name rs).storeParameters now name ps).storeRoutines name rs =
      ((st.storeRoutines name rs).storeRoutines name rs).storeParameters now name ps := rfl
  rw [hswap, storeRoutines_storeRoutines, storeParameters_storeParameters]
  exact sameRows_storeParameters ..

end Store

/-! ## Lemmas: opening again -/

namespace Database

/-- **A database that is named by a path** that leads to its file can be opened again after it was
changed. -/
theorem Usable.canOpen {mode : AccessMode} {request : DatabaseRequest} {asked last : String}
    {dir : List String} {file : DatabaseFile}
    (h : Usable mode name s s' request asked dir last file)
    (hd : d.HasStore s₁ request.canLog (dir ++ [last]) st) (hname : d.name = name)
    (hhome : s₁.files.home = s.files.home)
    (hmono : ∀ p, s.files.IsDirectory p → s₁.files.IsDirectory p)
    (huri : ¬DatabaseRequest.IsUri name) (hway : s.files.Way name (dir ++ [last]))
    (mustExist : Bool) : s₁.CanOpen mustExist name := by
  obtain ⟨rfl, hgiven⟩ := DatabaseRequest.ofName_congr huri h.requested
  have hproper : s₁.files.IsProper := ⟨hmono _ h.proper.root, hhome ▸ h.proper.home⟩
  have hplaced : IsPlaced s₁.files name (.ofPath .create name) asked (dir ++ [last]) :=
    ⟨hgiven _, h.path, by simp [DatabaseRequest.ofPath], rfl, hproper,
      ⟨s.files, hhome, h.located⟩, h.way.mono hmono hhome⟩
  have hagain := hplaced.opensAgain_of_way huri (hway.mono hmono hhome) hd.fit.node mustExist
  obtain ⟨d', hreopen, -⟩ := hd.reopen (hname.symm ▸ hagain)
  exact ⟨d', s₁, hname ▸ hreopen⟩

/-- What lies beside the file of a database that was changed lay there before. -/
theorem HasStore.node?_beside {canLog : Bool} {dir : List String} {last : String}
    (h : d.HasStore s₁ canLog (dir ++ [last]) st) (halters : Alters canLog dir last t s₁.files)
    (b : Companion) :
    s₁.files.node? (b.path (dir ++ [last])) = t.node? (b.path (dir ++ [last])) ∨
      s₁.files.node? (b.path (dir ++ [last])) = none := by
  by_cases hb : b = .log → canLog = false
  · exact halters.node?_beside hb
  obtain ⟨rfl, hcan⟩ := Classical.not_imp.1 hb
  have htidy := h.fit.tidy
  generalize canLog = logged at htidy hcan
  cases htidy with
  | logged _ hfree => exact Or.inr (hfree .log (by simp)).none
  | unlogged _ _ => exact absurd rfl hcan

end Database

/-! ## Samples -/

/-- A script, a database that holds a routine, with what lies beside it, and a file whose path is a
URI of the database. -/
def rerunTree (file : DatabaseFile) (beside : List (FileName × Node)) : FileTree where
  root := .directory [
    ("sql", .directory [("c.sql", .file (.bytes "create proc p @a int as".toUTF8))]),
    ("d", .directory (("p.db", .file (.database file)) :: beside)),
    ("file:d", .directory [
      ("p.db?modeof=d", .directory [("p.db-journal", .file (.bytes .empty))])])]
  home := []

/-- The tree where nothing lies beside the database. -/
def cleanTree : FileTree := rerunTree takenDatabase []

/-- The tree where a script lies in place of the journal of the database. -/
def staleTree : FileTree :=
  rerunTree takenDatabase
    [("p.db-journal", .file (.bytes "create proc p @a int as".toUTF8))]

/-- The URI of the database that asks for the permissions of its journal. -/
def journalUri : String := "file:d/p.db?modeof=d/p.db-journal"

theorem isSound_rerunTree (file : DatabaseFile) {beside : List (FileName × Node)}
    (hbeside : beside = [] ∨ ∃ content, beside = [(.text "p.db-journal", .file content)]) :
    (rerunTree file beside).IsSound := by
  have hleads : ∀ name ∈ ["sql", "c.sql", "d", "p.db", "p.db-journal", "file:d", "p.db?modeof=d"],
      FilePath.LeadsDown name := by
    unfold FilePath.LeadsDown
    decide +kernel
  simp only [List.forall_mem_cons] at hleads
  obtain ⟨hsql, hscript, hd, hdb, hjournal, huri, hmodeof, -⟩ := hleads
  refine .directory (by simp) (by simp [hsql, hd, huri]) ?_
  simp only [List.forall_mem_cons]
  refine ⟨.directory (by simp) (by simpa using hscript) (by simpa using .file _), ?_,
    .directory (by simp) (by simpa using hmodeof) ?_, by simp⟩
  · rcases hbeside with rfl | ⟨content, rfl⟩
    · exact .directory (by simp) (by simpa using hdb) (by simpa using .file _)
    · refine .directory (by simp) (by simp [hdb, hjournal]) ?_
      simp only [List.forall_mem_cons]
      exact ⟨.file _, .file _, by simp⟩
  · simp only [List.forall_mem_singleton]
    exact .directory (by simp) (by simpa using hjournal) (by simpa using .file _)

theorem isProper_rerunTree (file : DatabaseFile) (beside : List (FileName × Node)) :
    (rerunTree file beside).IsProper := ⟨⟨_, rfl, _, rfl⟩, by simp [rerunTree]⟩

/-- Where the name of the database leads, and what lies beside it. -/
theorem rerunTree_spec : "d/p.db".toByteArray.toList.findIdx? (· == 0) = none ∧
    Database.location? cleanTree "d/p.db" = some (["d"] ++ ["p.db"]) ∧
    Database.location? staleTree "d/p.db" = some (["d"] ++ ["p.db"]) ∧
    staleTree.beside (["d"] ++ ["p.db"]) .journal = .file 99 ∧
    staleTree.hasFile journalUri = true := by
  decide +kernel

theorem ready_cleanTree : Ready cleanTree "d/p.db" (.ofPath .create "d/p.db") (["d"] ++ ["p.db"])
    takenDatabase := by
  obtain ⟨hzero, hlocation, -⟩ := rerunTree_spec
  refine .of_find (isProper_rerunTree _ _) (by decide) hzero (by decide) rfl hlocation (by decide)
    takenDatabase_spec.2 fun c => ?_
  cases c <;> exact ⟨rfl, by decide⟩

theorem place?_cleanTree {given : AccessMode} (hgiven : DatabaseRequest.IsGiven given) :
    Database.place? given "d/p.db" cleanTree = some ["d", "p.db"] :=
  Database.place?_of_openIn (ready_cleanTree.openIn (s := .start cleanTree) hgiven)

theorem fit_rerunTree {file : DatabaseFile} (hlogged : file.image.logged = true) :
    Fit true (rerunTree file []) (["d"] ++ ["p.db"]) file := by
  refine ⟨rfl, hlogged, .logged (Or.inl (FileTree.beside_of_none rfl)) fun b _ => ?_⟩
  cases b <;> exact ⟨rfl, by decide⟩

/-- A script is no journal. -/
theorem lacksJournal_staleTree : Opening.LacksJournal staleTree (["d"] ++ ["p.db"]) := by
  have hcontent : staleTree.content? (Companion.journal.path (["d"] ++ ["p.db"])) =
    some (.bytes "create proc p @a int as".toUTF8) := rfl
  intro content
  rw [hcontent]
  exact Content.withJournal_of_head (by decide +kernel) content

/-- Opening the database takes the script away that lies in place of its journal. -/
theorem openIn_staleTree {given : AccessMode} {request : DatabaseRequest}
    (hname : DatabaseRequest.ofName given name = .ok request) (hpath : request.path = some "d/p.db")
    (hmode : request.mode ≠ .readOnly) (hfixed : request.isFixed = false)
    (hlog : request.canLog = true)
    (hpermissions : request.permissionsOf.any (!staleTree.hasNode ·) = false) :
    outcome (Database.openIn given name) (.start staleTree) =
      (.ok ⟨name, some ["d", "p.db"], takenDatabase, true, false⟩, .start cleanTree) := by
  obtain ⟨-, -, hlocation, hjournal, -⟩ := rerunTree_spec
  have hlocate : Database.locate request.mode (["d"] ++ ["p.db"]) staleTree =
      .ok (.database takenDatabase, staleTree) := by
    have hfind : staleTree.find (Database.pathText (["d"] ++ ["p.db"])) =
      .ok (["d", "p.db"], .file (.database takenDatabase)) := rfl
    generalize request.mode = mode
    cases mode <;> simp only [Database.locate, hfind]
  have hput : staleTree.put (["d"] ++ ["p.db"]) (.file (.database takenDatabase)) = staleTree := by
    rw [FileTree.put, Node.put_of_at? (show staleTree.root.at? _ = some _ from rfl)]
  have herase : staleTree.eraseBeside (["d"] ++ ["p.db"]) .journal = cleanTree := by
    rw [FileTree.eraseBeside, if_neg (by rw [hjournal]; simp)]
    rfl
  have hfit := fit_rerunTree takenDatabase_spec.2
  have hopen : outcome (Opening.openContent (Opening.changing true) (["d"] ++ ["p.db"])
      (.database takenDatabase)) staleTree = _ :=
    Opening.openContent_of_journal rfl rfl hjournal (by decide) rfl (lacksJournal_staleTree _)
  rw [hput, herase, cleanTree, Opening.openContent_of_fit hfit] at hopen
  rw [Database.openIn_eq hname hpath]
  refine Database.outcome_openFile_ok_iff.2
    ⟨_, _, _, ⟨takenDatabase, true, false⟩, hlocation, hpermissions, hlocate, ?_, rfl, rfl⟩
  rw [hfixed, hlog, decide_eq_true hmode]
  exact hopen

theorem ofName_journalUri {given : AccessMode} (hgiven : DatabaseRequest.IsGiven given) :
    DatabaseRequest.ofName given journalUri =
      .ok ⟨some "d/p.db", given, false, true, some "d/p.db-journal"⟩ := by
  rcases hgiven with rfl | rfl <;> decide +kernel

/-- Where nothing lies beside the database it cannot be opened by the URI. -/
theorem not_canOpen_journalUri {file : DatabaseFile} (hfiles : s.files = rerunTree file [])
    (mustExist : Bool) : ¬s.CanOpen mustExist journalUri := by
  rintro ⟨d, s', hreopen⟩
  have hreopen : outcome (Database.reopen mustExist journalUri) s = (.ok d, s') := hreopen
  obtain ⟨given, hgiven, hopen⟩ : ∃ given, DatabaseRequest.IsGiven given ∧
      outcome (Database.openIn given journalUri) s = (.ok d, s') := by
    cases mustExist with
    | false => exact ⟨_, Or.inl rfl, hreopen⟩
    | true => exact ⟨_, Or.inr rfl, (Database.openIn_of_connectExisting hreopen).2⟩
  rw [Database.openIn_eq (ofName_journalUri hgiven) rfl] at hopen
  obtain ⟨-, -, -, -, -, hpermissions, -⟩ := Database.outcome_openFile_ok_iff.1 hopen
  have hnone : (rerunTree file []).hasNode "d/p.db-journal" = false := rfl
  simp [hfiles, hnone] at hpermissions

theorem holdsAt_rerunTree {beside : List (FileName × Node)}
    (h : Opening.LacksJournal (rerunTree takenDatabase beside) (["d"] ++ ["p.db"])) :
    (rerunTree takenDatabase beside).HoldsAt ["d", "p.db"]
      (Store.empty.storeRoutines "N" [looseRoutine]) := by
  exact ⟨takenDatabase.marked false, h.held?_of_database rfl, takenDatabase_spec.1⟩

end RoutineParams
