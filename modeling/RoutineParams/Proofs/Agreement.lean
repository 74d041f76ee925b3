import RoutineParams.Proofs.ScanSteps

/-!
# Scanning a directory and scanning what it stored

A scan of a directory into a database and a scan of that database afterwards agree: the second one
finds the parameters of the first one again, in the order of their routines' numbers, and leaves the
same tables. It has to find a file at the path of the database, and to be allowed to open it.

    s.Scans m dir db c report s₁ → s₁.Rescans m' db c' report.parameters      (rescans_of_scans)
-/

namespace RoutineParams

/-- A scan of the routines stored in the database `db` succeeds, leaves its routines as they are,
and its parameters too, but for the time when they were stored, and reports the parameters `ps`,
regrouped; or it finds no routines, and there are no parameters. -/
def Session.Rescans (s : Session) (m : Machine) (db : String) (c : Config) (ps : List Parameter) :
    Prop :=
  ∃ st st' found s', s.Holds db st ∧ (scanCatalog m db c).result s = (.ok found, s') ∧
    s'.Holds db st' ∧ st'.routines = st.routines ∧
    (st'.parametersOf c.databaseName).map StoredParameter.untimed =
      (st.parametersOf c.databaseName).map StoredParameter.untimed ∧
    (∀ r, found = some r → Regroups r.parameters ps) ∧
    (found = none → st.parametersOf c.databaseName = [])

/-- A scan of the scripts in `dir` into the database `db`, which held nothing of the configuration's
database, gave `report`. The routines of the scripts have different numbers. -/
structure Session.Scans (s : Session) (m : Machine) (dir db : String) (c : Config) (report : Report)
    (s' : Session) : Prop where
  proper : s.files.IsProper
  holds : ∃ st, s.Holds db st ∧ st.Lacks c.databaseName
  files : ∃ files, sourceFiles dir c s.files = .ok files ∧
    ((routinesOfFiles files).map (·.objectId)).Nodup
  result : ∃ format, (scanDirectory m dir (some db) format c).result s = (.ok report, s')

variable {m m' : Machine} {dir db : String} {format : OutputFormat} {c c' : Config}
  {s s₁ : Session} {report : Report} {st : Store} {request : DatabaseRequest}

theorem Session.Scans.canReopen (h : s.Scans m dir db c report s₁)
    (huri : ¬DatabaseRequest.IsUri db) (hfile : s₁.files.hasFile db = true) :
    s₁.files.CanReopen db := by
  obtain ⟨-, -, -, format, hscan⟩ := h
  obtain ⟨-, d, -, -, u, -, -, -, -, hconnect, -⟩ := scanDirectory_ok_iff.1 hscan
  exact canReopen_of_hasFile hconnect huri hfile

/-! ## A sample -/

/-- A script of three routines. The second one has the least number, and the third one has no
parameters. -/
def sampleScript : String :=
  "create proc p @b int = 2, @a int as begin end\nGO\n" ++
  "create proc q @c int = 1 as begin end\nGO\n" ++
  "create proc r as begin end"

/-- A database without rows. -/
def sampleDatabase : DatabaseFile :=
  ⟨some .empty, { Storage.Image.prepared with logged := true }⟩

/-- A script, a database and a file whose path is no path to a database. -/
def sampleTree : FileTree where
  root := .directory [
    ("sql", .directory [("c.sql", .file (.bytes sampleScript.toUTF8))]),
    ("d", .directory [("p.db", .file (.database sampleDatabase))]),
    ("file:d", .directory [("p.db?mode=rwc", .file (.bytes .empty))])]
  home := []

/-- A file with a database whose changes are logged, and with nothing beside it, is ready under its
path. -/
theorem Ready.of_find {t : FileTree} {path last : String} {above : List String}
    {file : DatabaseFile} (hproper : t.IsProper) (huri : ¬DatabaseRequest.IsUri path)
    (hzero : path.toByteArray.toList.findIdx? (· == 0) = none)
    (hnoFile : DatabaseRequest.isNoFile path = false)
    (hfind : t.find path = .ok (above ++ [last], .file (.database file)))
    (hlocation : Database.location? t path = some (above ++ [last]))
    (hlength : (Database.pathText (above ++ [last])).utf8ByteSize ≤ FileTree.maxPathLength)
    (hlogged : file.image.logged = true)
    (hfree : ∀ c : Companion, c.IsFree t (above ++ [last])) :
    Ready t path (.ofPath .create path) (above ++ [last]) file := by
  obtain ⟨hway, hnode⟩ := FileTree.way_of_find hproper.root hfind
  refine ⟨hproper, fun given hgiven => ⟨given, ?_, ?_⟩, rfl, rfl, ?_,
    ⟨path, by simp [DatabaseRequest.ofPath, hnoFile], hway, hlocation⟩, hlength, hnode, hlogged, ?_⟩
  · rintro rfl
    rcases hgiven with hgiven | hgiven <;> cases hgiven
  · rw [DatabaseRequest.ofName_eq huri, hzero]
    rfl
  · rw [FileTree.hasFile, hfind]
  · exact .logged (Or.inl (FileTree.beside_of_none (hfree .journal).none)) fun c _ => hfree c

theorem ready_sampleTree : Ready sampleTree "d/p.db" (.ofPath .create "d/p.db") (["d"] ++ ["p.db"])
    sampleDatabase := by
  refine .of_find ⟨⟨_, rfl, _, rfl⟩, by simp [sampleTree]⟩ (by decide) (by decide +kernel)
    (by decide) rfl (by decide +kernel) (by decide) rfl fun c => ?_
  cases c <;> exact ⟨rfl, by decide⟩

theorem toList_sampleScript : sampleScript.toList =
    "create proc p @b int = 2, @a int as begin end\nGO\n".toList ++
      "create proc q @c int = 1 as begin end\nGO\n".toList ++
        "create proc r as begin end".toList :=
  String.toList_append.trans (congrArg (· ++ _) String.toList_append)

/-- The routines of the sample script, by their numbers and texts. -/
theorem routines_sampleScript :
    (routinesOfScript "c.sql" sampleScript).map (fun r => (r.objectId, r.definition)) =
      [(868333254, "create proc p @b int = 2, @a int as begin end"),
        (144637411, "create proc q @c int = 1 as begin end"),
        (764519951, "create proc r as begin end")] := by
  -- the kernel reads the script from a list of its characters
  rw [routinesOfScript, toList_sampleScript,
    show "create proc p @b int = 2, @a int as begin end\nGO\n".toList = _ from
      String.toList_ofList,
    show "create proc q @c int = 1 as begin end\nGO\n".toList = _ from String.toList_ofList,
    show "create proc r as begin end".toList = _ from String.toList_ofList]
  decide +kernel

theorem parameters_sampleScript :
    (extract 868333254 "create proc p @b int = 2, @a int as begin end").parameters =
        [⟨868333254, "@b", "2"⟩, ⟨868333254, "@a", ""⟩] ∧
      (extract 144637411 "create proc q @c int = 1 as begin end").parameters =
        [⟨144637411, "@c", "1"⟩] ∧
      (extract 764519951 "create proc r as begin end").parameters = [] := by
  rw [extract, extract, extract, lex, lex, lex, lexShowing, lexShowing, lexShowing,
    show "create proc p @b int = 2, @a int as begin end".toList = _ from String.toList_ofList,
    show "create proc q @c int = 1 as begin end".toList = _ from String.toList_ofList,
    show "create proc r as begin end".toList = _ from String.toList_ofList]
  decide +kernel

theorem routines_sampleTree :
    ∃ files, sourceFiles "sql" .standard sampleTree = .ok files ∧
      (routinesOfFiles files).map (·.objectId) = [868333254, 144637411, 764519951] ∧
      (routinesOfFiles files).flatMap Routine.parameters =
        [⟨868333254, "@b", "2"⟩, ⟨868333254, "@a", ""⟩, ⟨144637411, "@c", "1"⟩] := by
  have hfound : ((sourceFiles "sql" .standard sampleTree).toOption.map fun files =>
      files.map fun f => (f.path, f.content.text?)) = some [("c.sql", some sampleScript)] := by
    decide +kernel
  obtain ⟨files, hfiles, hfile⟩ := exists_of_toOption_map hfound
  obtain ⟨f, rfl, hf⟩ := List.map_eq_singleton_iff.1 hfile
  obtain ⟨hpath, htext⟩ := Prod.mk.inj hf
  have hroutines : routinesOfFiles [f] = routinesOfScript "c.sql" sampleScript := by
    rw [routinesOfFiles, List.flatMap_singleton, SourceFile.routines, htext, ← hpath]
  have hlist := routines_sampleScript
  obtain ⟨hp, hq, hr⟩ := parameters_sampleScript
  have hparameters : (routinesOfScript "c.sql" sampleScript).flatMap Routine.parameters =
      ((routinesOfScript "c.sql" sampleScript).map (fun r => (r.objectId, r.definition))).flatMap
        fun x => (extract x.1 x.2).parameters := by
    rw [List.flatMap_map]
    rfl
  refine ⟨[f], hfiles, ?_, ?_⟩
  · have hids := congrArg (List.map Prod.fst) hlist
    rw [List.map_map] at hids
    rw [hroutines]
    exact hids
  · rw [hroutines, hparameters, hlist, List.flatMap_cons, List.flatMap_cons, List.flatMap_cons, hp,
      hq, hr]
    rfl

theorem sourceFiles_sampleTree :
    ∃ files, sourceFiles "sql" .standard sampleTree = .ok files ∧
      ((routinesOfFiles files).map (·.objectId)).Nodup ∧
      (routinesOfFiles files).flatMap Routine.parameters =
        [⟨868333254, "@b", "2"⟩, ⟨868333254, "@a", ""⟩, ⟨144637411, "@c", "1"⟩] := by
  obtain ⟨files, hfiles, hids, hparameters⟩ := routines_sampleTree
  refine ⟨files, hfiles, ?_, hparameters⟩
  rw [hids]
  decide

theorem lacks_empty (name : String) : Store.empty.Lacks name := by
  simp [Store.Lacks, Store.empty]

/-- A scan of the sample script into a fit database. -/
theorem scans_sampleTree {canLog : Bool} {d : Database} {u : Session} {above : List String}
    {last : String} (hconnect : outcome (Database.connect db) (.start sampleTree) = (.ok d, u))
    (hwrite : d.canWrite = true) (hpath : d.path = some (above ++ [last]))
    (hst : d.file.store? = some .empty) (hfit : Fit canLog u.files (above ++ [last]) d.file) :
    ∃ report s₁, (Session.start sampleTree).Scans ⟨4, 0⟩ "sql" db .standard report s₁ ∧
      report.parameters =
        [⟨868333254, "@b", "2"⟩, ⟨868333254, "@a", ""⟩, ⟨144637411, "@c", "1"⟩] ∧
      u.files.Alike s₁.files := by
  obtain ⟨files, hfiles, hids, hparameters⟩ := sourceFiles_sampleTree
  obtain ⟨s₁, hscan, halike⟩ :=
    scanDirectory_of_fit hfiles hconnect hwrite hpath hst hfit ⟨4, 0⟩ .json
  refine ⟨_, s₁, ⟨ready_sampleTree.proper, ⟨.empty, ⟨d, u, hconnect, hst⟩, lacks_empty _⟩,
    ⟨files, hfiles, hids⟩, ⟨.json, hscan⟩⟩, ?_, halike⟩
  rw [Config.parameters_report, hparameters]

/-! ## Top theorem (proved from the lemmas above) -/

/-- **A scan of a directory and one of the database agree**: what a scan of scripts has stored in a
database that can be opened again, a scan of the routines there finds again. -/
theorem rescans_of_scans (h : s.Scans m dir db c report s₁) (hreopens : s₁.files.CanReopen db)
    (hname : c'.databaseName = c.databaseName) : s₁.Rescans m' db c' report.parameters := by
  obtain ⟨hproper, ⟨st, hholds, hlacks⟩, ⟨files, hfiles, hids⟩, format, hscan⟩ := h
  obtain ⟨files', d, -, -, u, -, -, hfiles', hreport, hconnect, -⟩ :=
    scanDirectory_ok_iff.1 hscan
  obtain rfl : files = files' := Except.ok.inj (hfiles.symm.trans hfiles')
  obtain ⟨request, hrequest, hmode⟩ := Database.of_openIn hconnect
  cases hpath : request.path with
  | none =>
    obtain ⟨hasFile, request', hrequest', -⟩ := hreopens
    obtain ⟨hasked, -⟩ := DatabaseRequest.askedBy hrequest (hmode hpath) hrequest'
    obtain ⟨s₂, hcatalog⟩ := scanCatalog_of_noFile hasked hpath hasFile m' c'
    exact ⟨.empty, .empty, none, s₂, holds_of_noFile hasked hpath s₁, hcatalog,
      holds_of_noFile hasked hpath s₂, rfl, rfl, fun r h => (by cases h), fun _ => rfl⟩
  | some path =>
    obtain ⟨loc, file, hready, hst⟩ :=
      ready_of_scanDirectory hproper hrequest hpath hholds hfiles hscan hreopens
    rw [← hname] at hst hlacks
    obtain ⟨found, s₂, st₂, hcatalog, hholds₂, hfound⟩ := scanCatalog_of_ready hready hst m' c'
    have hregroups := Store.regroups_routinesOf hlacks hids
    have hparameters : report.parameters = (routinesOfFiles files).flatMap Routine.parameters := by
      rw [hreport, Config.parameters_report]
    rw [← hparameters] at hregroups
    refine ⟨_, st₂, found, s₂, hready.holds hst s₁.printed, hcatalog, hholds₂, ?_⟩
    rcases hfound with ⟨hnil, rfl, rfl⟩ | ⟨r, hr, rfl, rfl⟩
    · refine ⟨rfl, rfl, fun r h => (by cases h), fun _ => ?_⟩
      have hnone : report.parameters = [] := by
        rw [show (st.storeRoutines c'.databaseName (routinesOfFiles files)).routinesOf
          c'.databaseName = [] from hnil] at hregroups
        exact hregroups.eq_nil
      rw [hnone, Store.parametersOf_storeParameters]
      rfl
    · have hparameters' : Regroups r.parameters report.parameters := by
        rw [hr, Config.parameters_report]
        exact hregroups
      refine ⟨rfl, Store.untimed_parametersOf_congr hparameters' _ _ _ _ _, fun r' h => ?_,
        fun h => (by cases h)⟩
      obtain rfl := Option.some.inj h
      exact hparameters'

theorem rescans_of_scans_sample :
    ∃ report s₁, (Session.start sampleTree).Scans ⟨4, 0⟩ "sql" "d/p.db" .standard report s₁ ∧
      report.parameters =
        [⟨868333254, "@b", "2"⟩, ⟨868333254, "@a", ""⟩, ⟨144637411, "@c", "1"⟩] ∧
      s₁.files.CanReopen "d/p.db" ∧
      s₁.Rescans ⟨2, 60⟩ "d/p.db" { Config.standard with batchSize := 1 } report.parameters := by
  have hready := ready_sampleTree
  have hconnect := Ready.connect (s := .start sampleTree) hready
  obtain ⟨report, s₁, hscans, hparameters, halike⟩ :=
    scans_sampleTree hconnect rfl rfl rfl hready.fit
  have hreopens : s₁.files.CanReopen "d/p.db" := by
    refine hscans.canReopen (by decide) ?_
    rw [halike.hasFile]
    exact hready.hasFile
  exact ⟨report, s₁, hscans, hparameters, hreopens, rescans_of_scans hscans hreopens rfl⟩

/-- A database without a file cannot be scanned again. -/
theorem not_rescans_memory :
    ∃ report s₁, (Session.start sampleTree).Scans ⟨4, 0⟩ "sql" ":memory:" .standard report s₁ ∧
      (∃ request, DatabaseRequest.ofName .existing ":memory:" = .ok request ∧
        request.path = none ∧ request.permissionsOf = none) ∧
      ¬s₁.Rescans ⟨4, 0⟩ ":memory:" .standard report.parameters := by
  obtain ⟨files, hfiles, hids, -⟩ := sourceFiles_sampleTree
  have hzero : ":memory:".toByteArray.toList.findIdx? (· == 0) = none := by decide +kernel
  have hname : ∀ mode, DatabaseRequest.ofName mode ":memory:" = .ok (.ofPath mode ":memory:") := by
    intro mode
    rw [DatabaseRequest.ofName_eq (by decide), hzero]
  have hasked : (DatabaseRequest.ofPath .create ":memory:").AskedBy ":memory:" := by
    rintro given (rfl | rfl)
    · exact ⟨_, by decide, hname _⟩
    · exact ⟨_, by decide, hname _⟩
  obtain ⟨s₁, hscan, hsame⟩ := scanDirectory_of_noFile (s := .start sampleTree) hasked (by decide)
    hfiles ⟨4, 0⟩ .json
  refine ⟨_, s₁, ⟨ready_sampleTree.proper, ⟨.empty, holds_of_noFile hasked (by decide) _,
    lacks_empty _⟩, ⟨files, hfiles, hids⟩, ⟨.json, hscan⟩⟩,
    ⟨_, hname .existing, by decide, rfl⟩, ?_⟩
  have hnone : s₁.files.hasFile ":memory:" = false := by
    rw [hsame]
    decide +kernel
  rintro ⟨-, -, found, s₂, -, hcatalog, -⟩
  cases hcatalog.symm.trans (scanCatalog_of_not_hasFile hnone _ _)

/-- Nor can one whose name asks for its file to be made. -/
theorem not_rescans_uri :
    ∃ report s₁, (Session.start sampleTree).Scans ⟨4, 0⟩ "sql" "file:d/p.db?mode=rwc" .standard
        report s₁ ∧
      s₁.files.hasFile "file:d/p.db?mode=rwc" = true ∧
      ¬s₁.Rescans ⟨4, 0⟩ "file:d/p.db?mode=rwc" .standard report.parameters := by
  have hname : DatabaseRequest.ofName .create "file:d/p.db?mode=rwc" =
      .ok (.ofPath .create "d/p.db") := by
    decide +kernel
  have hready := ready_sampleTree
  have hmode : AccessMode.create ≠ .readOnly := by decide
  have hconnect : outcome (Database.connect "file:d/p.db?mode=rwc") (.start sampleTree) = _ :=
    (congrArg (outcome · _) (Database.openIn_eq hname rfl)).trans
      (hready.openFile (s := .start sampleTree) rfl hmode _)
  obtain ⟨report, s₁, hscans, -, halike⟩ := scans_sampleTree hconnect rfl rfl rfl hready.fit
  have hfile : s₁.files.hasFile "file:d/p.db?mode=rwc" = true := by
    rw [halike.hasFile]
    decide +kernel
  have hfault : DatabaseRequest.ofName .existing "file:d/p.db?mode=rwc" =
      .error (.modeNotAllowed "rwc") := by
    decide +kernel
  refine ⟨report, s₁, hscans, hfile, ?_⟩
  rintro ⟨-, -, found, s₂, -, hcatalog, -⟩
  cases hcatalog.symm.trans (scanCatalog_of_nameFault hfile hfault _ _)

/-- Neither a file at the name of the database, nor that the name asks for what is there, is
enough. -/
theorem not_forall_rescans_of_scans :
    (¬∀ (m m' : Machine) (dir db : String) (c c' : Config) (s s₁ : Session) (report : Report),
      s.Scans m dir db c report s₁ → c'.databaseName = c.databaseName →
        (∃ request, DatabaseRequest.ofName .existing db = .ok request ∧
          (∀ path, request.path = some path → s₁.files.hasFile path = true) ∧
          ∀ path, request.permissionsOf = some path → s₁.files.hasNode path = true) →
        s₁.Rescans m' db c' report.parameters) ∧
    ¬∀ (m m' : Machine) (dir db : String) (c c' : Config) (s s₁ : Session) (report : Report),
      s.Scans m dir db c report s₁ → c'.databaseName = c.databaseName →
        s₁.files.hasFile db = true → s₁.Rescans m' db c' report.parameters := by
  constructor
  · intro h
    obtain ⟨report, s₁, hscans, ⟨request, hname, hpath, hmodeof⟩, hnot⟩ := not_rescans_memory
    refine hnot (h _ _ _ _ _ _ _ _ _ hscans rfl ⟨request, hname, ?_, ?_⟩)
    · rw [hpath]
      simp
    · rw [hmodeof]
      simp
  · intro h
    obtain ⟨report, s₁, hscans, hfile, hnot⟩ := not_rescans_uri
    exact hnot (h _ _ _ _ _ _ _ _ _ hscans rfl hfile)

end RoutineParams
