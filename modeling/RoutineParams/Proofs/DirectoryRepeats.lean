import RoutineParams.Proofs.Repetition

/-!
# Scans of directories that are repeated

A scan of a directory that is done again right after it succeeded finds and prints the same, and
leaves the same rows but for the times. The scripts must not lie where the database has its file or
those beside it, which it may take away; and it must be possible to open the database again.

    a scan of a directory that is done again                              (repeats_scanDirectory)
    one that reads a script in place of the journal                  (exists_not_repeats_journal)
-/

namespace RoutineParams

variable {s s' s₁ s₂ u : Session} {loc : List String} {name db src : String}
  {t t' : FileTree} {d d' : Database} {st : Store} {m m' : Machine} {c : Config}
  {format format' : OutputFormat} {report : Report} {found : Option Report}

/-! ## Scans of directories -/

/-- **A scan into a database with a file** leaves its store there, and all other files. -/
theorem of_scanDirectory_file {files : List SourceFile} (hproper : s.files.IsProper)
    (hfiles : sourceFiles src c s.files = .ok files)
    (hconnect : outcome (Database.connect db) s = (.ok d, u)) (hpath : d.path = some loc)
    (hst : s.files.HoldsAt loc st)
    (hscan : (scanDirectory m src (some db) format c).result s = (.ok report, s₁)) :
    s.Holds db st ∧ ∃ request asked dir last, ∃ d₁ : Database, loc = dir ++ [last] ∧
      Database.Usable .create db s u request asked dir last d.file ∧
      Alters request.canLog dir last s.files s₁.files ∧
      Database.IsPlaced s₁.files db request asked loc ∧ d₁.name = db ∧
      d₁.HasStore s₁ request.canLog loc
        ((st.storeRoutines c.databaseName (routinesOfFiles files)).storeParameters m.now
          c.databaseName report.parameters) := by
  obtain ⟨_, d', _, _, u', _, _, -, -, hconnect', hroutines, hparameters, -⟩ :=
    scanDirectory_ok_iff.1 hscan
  obtain ⟨hd, rfl⟩ := Prod.mk.inj (hconnect.symm.trans hconnect')
  obtain rfl : d = d' := Except.ok.inj hd
  have hwrite : d.canWrite = true := by
    obtain ⟨-, -, hsame, -⟩ := Database.of_update hroutines
    exact hsame ▸ (Database.of_update hparameters).2.2.2 rfl
  have hst' := Database.store?_of_openIn hproper hconnect hpath hwrite hst
  obtain ⟨-, request, asked, dir, last, rfl, husable⟩ :=
    Database.usable_of_openIn hproper hconnect hpath hwrite
  obtain ⟨request', asked', d₁, hplaced, hname, hd₁⟩ :=
    hasStore_of_scanDirectory hproper hconnect hpath hst' hfiles hscan
  obtain rfl := Except.ok.inj (husable.requested.symm.trans hplaced.requested)
  obtain rfl := Option.some.inj (husable.path.symm.trans hplaced.path)
  exact ⟨⟨d, u, hconnect, hst'⟩, request, asked, dir, last, d₁, rfl, husable,
    husable.alters.trans (alters_of_scanDirectory hconnect hpath hscan), hplaced, hname, hd₁⟩

/-- After a scan of a directory its database can be opened again where it is named by a path that
leads to its file, if it has one. -/
theorem canOpen_of_scanDirectory (hproper : s.files.IsProper)
    (hrows : s.files.HoldsRows (Database.place? .create db s.files))
    (hscan : (scanDirectory m src (some db) format c).result s = (.ok report, s₁))
    (huri : ¬DatabaseRequest.IsUri db)
    (hway : ∀ loc, Database.place? .create db s.files = some loc → s.files.Way db loc) :
    s₁.CanOpen false db := by
  obtain ⟨files, d, -, -, u, -, -, hfiles, -, hconnect, -⟩ := scanDirectory_ok_iff.1 hscan
  rw [Database.place?_of_openIn hconnect] at hrows hway
  cases hpath : d.path with
  | none => exact ⟨d, s₁, Database.openIn_of_path_none hconnect hpath s₁⟩
  | some loc =>
    obtain ⟨st, hst⟩ := hrows loc hpath
    obtain ⟨-, request, asked, dir, last, d₁, rfl, husable, halters, -, hname, hd₁⟩ :=
      of_scanDirectory_file hproper hfiles hconnect hpath hst hscan
    exact husable.canOpen hd₁ hname halters.home
      (fun _ => halters.isDirectory husable.notDirectory) huri (hway _ hpath) false

/-- **A scan of a directory that is done again** finds and leaves the same. -/
theorem repeats_scanDirectory (hproper : s.files.IsProper) (hsound : s.files.IsSound)
    (hrows : s.files.HoldsRows (Database.place? .create db s.files))
    (hapart : ∀ loc, Database.place? .create db s.files = some loc →
      s.files.ScansApart src c loc)
    (hscan : (scanDirectory m src (some db) format c).result s = (.ok report, s₁))
    (hopen : s₁.CanOpen false db) (m' : Machine) (format' : OutputFormat) :
    s.Repeats s₁ (Database.place? .create db s.files) (scanDirectory m' src (some db) format' c)
      report := by
  obtain ⟨d', u', hreopen⟩ := hopen
  have hreopen : outcome (Database.reopen false db) s₁ = (.ok d', u') := hreopen
  have hconnect' : outcome (Database.connect db) s₁ = (.ok d', u') := hreopen
  obtain ⟨files, d, -, -, u, -, -, hfiles, hreport, hconnect, -⟩ := scanDirectory_ok_iff.1 hscan
  obtain rfl := hreport.trans (Config.report_eq ..)
  rw [Database.place?_of_openIn hconnect] at hrows hapart ⊢
  cases hpath : d.path with
  | none =>
    have hs₁ :=
      (Prod.mk.inj (hscan.symm.trans (scanDirectory_of_path_none hfiles hconnect hpath m format))).2
    have hfiles' : sourceFiles src c s₁.files = .ok files := by rw [hs₁, hfiles]
    have hpath' : d'.path = none := by
      rw [← Database.place?_of_openIn hconnect', ← hpath, ← Database.place?_of_openIn hconnect, hs₁]
    have hagain := scanDirectory_of_path_none hfiles' hconnect' hpath' m' format'
    rw [Config.report_eq] at hagain
    exact ⟨_, _, hagain, by rw [hs₁, Config.report_eq], rfl, fun loc hloc => by cases hloc⟩
  | some loc =>
    obtain ⟨st, hst⟩ := hrows loc hpath
    obtain ⟨hholds, request, asked, dir, last, d₁, rfl, husable, halters, hplaced, rfl, hd₁⟩ :=
      of_scanDirectory_file hproper hfiles hconnect hpath hst hscan
    -- the scripts are found again
    have htouches := Touches.of_alters halters husable.notDirectory
    have hdir := (husable.way.isDirectory hproper.root).2
    rw [List.dropLast_concat] at hdir
    obtain ⟨files', hfiles', hroutines⟩ := htouches.sourceFiles hproper hsound
      (FileTree.leadsDown_of_location? hproper husable.located) hdir hfiles (hapart _ hpath)
      hd₁.fit.node (hd₁.node?_beside halters)
    -- and so is the store
    have hagain := hplaced.opensAgain hreopen
    obtain ⟨s₂, d₂, hscan', -, -, hd₂⟩ :=
      scanDirectory_of_hasStore hd₁ hagain hfiles' m' format'
    have hholds' : s₁.Holds d₁.name _ :=
      ⟨d', u', hconnect', (hd₁.of_reopen hplaced hreopen).2.store⟩
    have hprinted := (scanInto_of_scanDirectory hfiles hholds hscan).2
    have hprinted' := (scanInto_of_scanDirectory hfiles' hholds' hscan').2
    rw [Config.report_eq, hroutines] at hscan' hprinted' hd₂
    refine ⟨s₂, _, hscan', hprinted, hprinted', ?_⟩
    rintro loc ⟨⟩
    exact ⟨_, _, hd₁.holdsAt, hd₂.holdsAt, Store.sameRows_storeAgain ..⟩

/-! ## Samples -/

/-- A configuration for the routine that is there. -/
def rerunConfig : Config := { Config.standard with databaseName := "N" }

/-- A configuration that reads journals. -/
def journalConfig : Config := { Config.standard with includePatterns := ["*-journal"] }

/-- What scans of the samples find, and what is no journal. -/
theorem rerunScripts_spec :
    (sourceFiles "sql" rerunConfig cleanTree).toOption.map (fun files =>
      (routinesOfFiles files).length) = some 1 ∧
    (sourceFiles "d" journalConfig staleTree).toOption.map (fun files =>
      (routinesOfFiles files).length) = some 1 ∧
    (Admission.ofConfig journalConfig).toOption.map (fun a =>
      a.includes.any (·.isMatch (sourcePath [.text "p.db"]))) = some false := by
  decide +kernel

/-- The script can be scanned into the database. -/
theorem scanDirectory_cleanTree : ∃ report s₁,
    (scanDirectory ⟨4, 0⟩ "sql" (some "d/p.db") .json rerunConfig).result (.start cleanTree) =
      (.ok report, s₁) ∧ report.routines = 1 := by
  obtain ⟨files, hfiles, hlength⟩ := exists_of_toOption_map rerunScripts_spec.1
  obtain ⟨s₁, hscan, -⟩ := scanDirectory_of_fit (s := .start cleanTree) hfiles
    (ready_cleanTree.connect (s := .start cleanTree)) rfl rfl takenDatabase_spec.1
    ready_cleanTree.fit ⟨4, 0⟩ .json
  exact ⟨_, s₁, hscan, by rw [Config.report_eq]; exact hlength⟩

theorem scansApart_rerunTree (file : DatabaseFile) (beside : List (FileName × Node)) (c : Config) :
    (rerunTree file beside).ScansApart "sql" c ["d", "p.db"] := by
  have hdir : (rerunTree file beside).directory? "sql" = some ["sql"] := rfl
  constructor
  · rintro ⟨a, p, -, hp, x, -, heq⟩
    obtain rfl := Option.some.inj (hdir.symm.trans hp)
    simp at heq
  · rintro b ⟨a, p, -, hp, x, -, heq⟩
    obtain rfl := Option.some.inj (hdir.symm.trans hp)
    simp [Companion.path] at heq

/-- What a change makes of the tree. -/
theorem update_rerunTree (hpath : d.path = some ["d", "p.db"]) (hwrite : d.canWrite = true)
    (hst : d.file.store? = some st) (hlogged : d.file.image.logged = true) (change : StoreChange)
    (printed : List Printed) :
    ∃ file, outcome (d.update change) ⟨rerunTree d.file [], printed⟩ =
        (.ok { d with file }, ⟨rerunTree file [], printed⟩) ∧
      file.store? = some (st.apply change) ∧ file.image.logged = true := by
  cases hnothing : change.isNothing with
  | true =>
    refine ⟨d.file, ?_, ?_, hlogged⟩
    · rw [Database.update, if_pos hnothing]
      rfl
    · rw [hst, Store.apply_of_isNothing hnothing]
  | false =>
    obtain ⟨file, happly, hfile, hsame⟩ := DatabaseFile.exists_apply hst change
    have hlogged' := hsame.trans hlogged
    have hput := (Opening.write_of_fit (fit_rerunTree hlogged) hlogged').1
    exact ⟨file, Database.update_of_write hwrite hpath hnothing happly hput, hfile, hlogged'⟩

/-- A scan into the database leaves it with nothing beside it. -/
theorem scanDirectory_staleTree {request : DatabaseRequest} {files : List SourceFile}
    (hname : DatabaseRequest.ofName .create name = .ok request)
    (hpath : request.path = some "d/p.db") (hmode : request.mode ≠ .readOnly)
    (hfixed : request.isFixed = false) (hlog : request.canLog = true)
    (hpermissions : request.permissionsOf.any (!staleTree.hasNode ·) = false)
    (hfiles : sourceFiles src c staleTree = .ok files) (m : Machine) (format : OutputFormat) :
    ∃ file s₁, (scanDirectory m src (some name) format c).result (.start staleTree) =
        (.ok (c.report m (routinesOfFiles files)), s₁) ∧ s₁.files = rerunTree file [] := by
  have hconnect : outcome (Database.connect name) (.start staleTree) = _ :=
    openIn_staleTree hname hpath hmode hfixed hlog hpermissions
  obtain ⟨hst, hlogged⟩ := takenDatabase_spec
  obtain ⟨file₁, hroutines, hst₁, hlogged₁⟩ := update_rerunTree
    (d := ⟨name, some ["d", "p.db"], takenDatabase, true, false⟩) rfl rfl hst hlogged
    (.routines c.databaseName (routinesOfFiles files)) []
  obtain ⟨file₂, hparameters, -⟩ := update_rerunTree
    (d := ⟨name, some ["d", "p.db"], file₁, true, false⟩) rfl rfl hst₁ hlogged₁
    (.parameters m.now c.databaseName (c.report m (routinesOfFiles files)).parameters) []
  exact ⟨file₂, _, scanDirectory_ok_iff.2
    ⟨files, _, _, _, _, _, _, hfiles, rfl, hconnect, hroutines, hparameters, rfl⟩, rfl⟩

/-- The database is no journal. -/
theorem admits_journalConfig {a : Admission} (ha : Admission.ofConfig journalConfig = .ok a)
    (size : Nat) : a.admits (sourcePath [.text "p.db"]) size = false := by
  have hnone := rerunScripts_spec.2.2
  rw [ha] at hnone
  have hnone : a.includes.any (·.isMatch (sourcePath [.text "p.db"])) = false := Option.some.inj hnone
  rw [Admission.admits, hnone]
  rfl

/-- Where nothing lies beside the database it finds nothing. -/
theorem routinesOfFiles_rerunTree {file : DatabaseFile} {files : List SourceFile}
    (h : sourceFiles "d" journalConfig (rerunTree file []) = .ok files) :
    routinesOfFiles files = [] := by
  obtain ⟨p, a, hdir, ha, rfl⟩ := exists_of_sourceFiles h
  have hd : (rerunTree file []).directory? "d" = some ["d"] := rfl
  obtain rfl := Option.some.inj (hd.symm.trans hdir)
  have hbelow : (rerunTree file []).filesBelow ["d"] = [([.text "p.db"], .database file)] := rfl
  have hnone : (rerunTree file []).admitted a ["d"] = [] := by
    refine List.eq_nil_iff_forall_not_mem.2 fun x hx => ?_
    obtain ⟨hx, hadmits⟩ := FileTree.mem_admitted.1 hx
    rw [hbelow, List.mem_singleton] at hx
    rw [hx, admits_journalConfig ha] at hadmits
    cases hadmits
  rw [hnone]
  rfl

theorem holdsRows_staleTree {given : AccessMode}
    (h : outcome (Database.openIn given name) (.start staleTree) = (.ok d, s'))
    (hpath : d.path = some ["d", "p.db"]) :
    Database.place? given name (Session.start staleTree).files = some ["d", "p.db"] ∧
      (Session.start staleTree).files.HoldsRows
        (Database.place? given name (Session.start staleTree).files) := by
  have hplace := (Database.place?_of_openIn h).trans hpath
  refine ⟨hplace, fun loc hloc => ?_⟩
  obtain rfl := Option.some.inj (hplace.symm.trans hloc)
  exact ⟨_, holdsAt_rerunTree lacksJournal_staleTree⟩

/-- A script that lies in place of the journal is read by the first scan only. -/
theorem exists_not_repeats_journal :
    ∃ report s₁, (Session.start staleTree).files.HoldsRows
        (Database.place? .create "d/p.db" (Session.start staleTree).files) ∧
      (∀ loc, Database.place? .create "d/p.db" (Session.start staleTree).files = some loc →
        ¬(Session.start staleTree).files.Discovers "d" journalConfig loc) ∧
      (scanDirectory ⟨4, 0⟩ "d" (some "d/p.db") .json journalConfig).result (.start staleTree) =
        (.ok report, s₁) ∧ s₁.CanOpen false "d/p.db" ∧
      ∀ place, ¬(Session.start staleTree).Repeats s₁ place
        (scanDirectory ⟨4, 0⟩ "d" (some "d/p.db") .json journalConfig) report := by
  obtain ⟨files, hfiles, hlength⟩ := exists_of_toOption_map rerunScripts_spec.2.1
  have hname : DatabaseRequest.ofName .create "d/p.db" =
    .ok ⟨some "d/p.db", .create, false, true, none⟩ := by
    rw [DatabaseRequest.ofName_eq (by decide), rerunTree_spec.1]
    rfl
  obtain ⟨hplace, hrows⟩ :=
    holdsRows_staleTree (openIn_staleTree hname rfl (by decide) rfl rfl rfl) rfl
  obtain ⟨file, s₁, hscan, hfiles₁⟩ :=
    scanDirectory_staleTree hname rfl (by decide) rfl rfl rfl hfiles ⟨4, 0⟩ .json
  refine ⟨_, s₁, hrows, ?_, hscan, ?_, ?_⟩
  · rintro loc hloc ⟨a, p, ha, hdir, x, hx, heq⟩
    obtain rfl := Option.some.inj (hplace.symm.trans hloc)
    have hd : (Session.start staleTree).files.directory? "d" = some ["d"] := rfl
    obtain rfl := Option.some.inj (hd.symm.trans hdir)
    have hpath : x.1 = [.text "p.db"] := (List.cons.inj heq).2
    have hadmits := (FileTree.mem_admitted.1 hx).2
    rw [hpath, admits_journalConfig ha] at hadmits
    cases hadmits
  · refine canOpen_of_scanDirectory (isProper_rerunTree _ _) hrows hscan (by decide) ?_
    intro loc hloc
    obtain rfl := Option.some.inj (hplace.symm.trans hloc)
    exact (FileTree.way_of_find (isProper_rerunTree _ _).root rfl).1
  · rintro place ⟨s₂, -, hscan', -⟩
    obtain ⟨files', hfiles', hreport⟩ := report_of_scanDirectory hscan'
    rw [hfiles₁] at hfiles'
    rw [Config.report_eq, routinesOfFiles_rerunTree hfiles'] at hreport
    have hnone : (routinesOfFiles files).length = 0 := congrArg Report.routines hreport
    omega

/-- A scan into the URI can be done once only. -/
theorem exists_not_repeats_uri :
    ∃ report s₁, (Session.start staleTree).files.HoldsRows
        (Database.place? .create journalUri (Session.start staleTree).files) ∧
      (∀ loc, Database.place? .create journalUri (Session.start staleTree).files = some loc →
        (Session.start staleTree).files.ScansApart "sql" .standard loc) ∧
      (scanDirectory ⟨4, 0⟩ "sql" (some journalUri) .json .standard).result (.start staleTree) =
        (.ok report, s₁) ∧
      ∀ place, ¬(Session.start staleTree).Repeats s₁ place
        (scanDirectory ⟨4, 0⟩ "sql" (some journalUri) .json .standard) report := by
  obtain ⟨a, ha⟩ := exists_admission
  have hname := ofName_journalUri (Or.inl rfl)
  have hpermissions : (some "d/p.db-journal").any (!staleTree.hasNode ·) = false := rfl
  have hfiles : sourceFiles "sql" .standard staleTree = _ := sourceFiles_eq rfl ha
  obtain ⟨hplace, hrows⟩ :=
    holdsRows_staleTree (openIn_staleTree hname rfl (by decide) rfl rfl hpermissions) rfl
  obtain ⟨file, s₁, hscan, hfiles₁⟩ :=
    scanDirectory_staleTree hname rfl (by decide) rfl rfl hpermissions hfiles ⟨4, 0⟩ .json
  refine ⟨_, s₁, hrows, fun loc hloc => ?_, hscan, ?_⟩
  · obtain rfl := Option.some.inj (hplace.symm.trans hloc)
    exact scansApart_rerunTree _ _ _
  · rintro place ⟨s₂, -, hscan', -⟩
    obtain ⟨-, d, -, -, u, -, -, -, -, hconnect, -⟩ := scanDirectory_ok_iff.1 hscan'
    exact not_canOpen_journalUri hfiles₁ false ⟨d, u, hconnect⟩

end RoutineParams
