import RoutineParams.Proofs.Agreement
import RoutineParams.Proofs.Histories

/-!
# Scans of databases with a history

A scan of the routines that are stored for a name stores the parameters of all of them in place of
those that were there. But if none of them has an at sign, it changes nothing, and parameters of
routines that were replaced since then stay. A scan of a directory puts its routines in place of
those with the same numbers and leaves all others, of which a scan of the stored routines finds the
parameters again.

    a scan of what a database in its place holds after changes        (HasStore.catalogScanned)
    a scan of the routines of a new database that was led through steps
                                                                     (isTableOf_scanCatalog_iff)
    a scan of a directory into a database after changes, and one of its routines
                                                                        (mem_modules_scanDirectory)
-/

namespace RoutineParams

namespace Database

/-- The routines that are stored for a name, in the order of their numbers. -/
def modulesOf? (d : Database) (name : String) : Option (List Routine) :=
  d.file.store?.map (·.modulesOf name)

/-- The changes that a scan of stored routines makes that gives `found`. -/
def catalogChanges (m : Machine) (c : Config) : Option Report → List StoreChange
  | none => []
  | some report => [.parameters m.now c.databaseName report.parameters]

/-- The changes that a scan of a directory makes that finds the routines `rs`. -/
def directoryChanges (m : Machine) (c : Config) (rs : List Routine) : List StoreChange :=
  [.routines c.databaseName rs, .parameters m.now c.databaseName (rs.flatMap Routine.parameters)]

/-- After the changes `cs` the routines `modules` are stored in the database `name` for a
configuration's database. A scan of them gave `found` and left the session `s`: if one of them has
an at sign, it found and stored the parameters of all of them, and else nothing. -/
structure CatalogScanned (m : Machine) (name : String) (c : Config) (cs : List StoreChange)
    (modules : List Routine) (found : Option Report) (s : Session) : Prop where
  latest : Latest modules (storedRoutines c.databaseName cs)
  none_iff : found = none ↔ ∀ r ∈ modules, '@' ∉ r.definition.toList
  parameters : ∀ report, found = some report →
    report.parameters = modules.flatMap Routine.parameters
  reopens : ∀ mustExist, ∃ d, (reopen mustExist name).result s = (.ok d, s) ∧
    d.modulesOf? c.databaseName = some modules ∧ d.Answers s (cs ++ catalogChanges m c found)

variable {d d' : Database} {s s' s₁ s₂ s₃ u : Session} {loc : List String}
  {name db dir asked : String} {format : OutputFormat} {request : DatabaseRequest} {st : Store}
  {cs : List StoreChange} {rs modules : List Routine} {steps : List DatabaseStep}
  {m : Machine} {c : Config} {found : Option Report} {report : Report}

/-! ## Lemmas: changes of scans -/

theorem after_catalogChanges (m : Machine) (c : Config) (found : Option Report) :
    Store.after (cs ++ catalogChanges m c found) = (match found with
      | none => Store.after cs
      | some report => (Store.after cs).storeParameters m.now c.databaseName report.parameters) := by
  cases found with
  | none => rw [catalogChanges, List.append_nil]
  | some report =>
    rw [catalogChanges, Store.after, List.foldl_concat]
    rfl

/-- A scan of stored routines leaves them. -/
theorem modulesOf_catalogChanges (m : Machine) (c : Config) (found : Option Report)
    (name : String) : (Store.after (cs ++ catalogChanges m c found)).modulesOf name =
      (Store.after cs).modulesOf name := by
  rw [after_catalogChanges]
  cases found <;> rfl

theorem storedRoutines_directoryChanges (cs : List StoreChange) (m : Machine) (c : Config)
    (rs : List Routine) : storedRoutines c.databaseName (cs ++ directoryChanges m c rs) =
      storedRoutines c.databaseName cs ++ rs := by
  rw [storedRoutines_append]
  simp [directoryChanges, storedRoutines, StoreChange.databaseName, StoreChange.storedRoutines]

/-- Which parameters are there after a scan of stored routines. -/
theorem lastParameters_catalogChanges (m : Machine) (c : Config) (found : Option Report) :
    lastParameters c.databaseName (cs ++ catalogChanges m c found) = (match found with
      | none => lastParameters c.databaseName cs
      | some report => (m.now, report.parameters)) := by
  cases found with
  | none => rw [catalogChanges, List.append_nil]
  | some report => exact (Store.lastParameters_concat ..).trans (if_pos rfl)

/-! ## Lemmas: scans of stored routines -/

/-- A scan of stored routines that succeeds has opened the database. -/
theorem reopen_of_scanCatalog (h : outcome (scanCatalog m name c) s = (.ok found, s')) :
    ∃ d u, outcome (reopen true name) s = (.ok d, u) := by
  obtain ⟨rs, u, hread, -⟩ := outcome_bind_ok h
  obtain ⟨d, u, hopen, -⟩ := outcome_bind_ok ((Action.outcome_within_ok_iff _).1 hread)
  exact ⟨d, u, hopen⟩

/-- **A scan of the routines of a database** in its place, after changes. -/
theorem HasStore.catalogScanned (h : d.HasStore s request.canLog loc (Store.after cs))
    (hplaced : IsPlaced s.files d.name request asked loc)
    (hscan : outcome (scanCatalog m d.name c) s = (.ok found, s')) :
    CatalogScanned m d.name c cs ((Store.after cs).modulesOf c.databaseName) found s' := by
  obtain ⟨_, _, hopen⟩ := reopen_of_scanCatalog hscan
  have hagain := hplaced.opensAgain hopen
  obtain ⟨found', s'', st', d', hscan', halike, hname, h', hfound⟩ :=
    scanCatalog_of_hasStore h hagain m c
  obtain ⟨hok, rfl⟩ := Prod.mk.inj (hscan.symm.trans hscan')
  obtain rfl : found = found' := Except.ok.inj hok
  have hroutines := (Store.after cs).routinesOf_eq c.databaseName
  have hnil : (Store.after cs).routinesOf c.databaseName = [] ↔
      ∀ r ∈ (Store.after cs).modulesOf c.databaseName, '@' ∉ r.definition.toList := by
    simp [hroutines, Routine.hasAtSign]
  have hst' : st' = Store.after (cs ++ catalogChanges m c found) := by
    rw [after_catalogChanges]
    rcases hfound with ⟨-, rfl, rfl⟩ | ⟨-, report, -, rfl, rfl⟩ <;> rfl
  subst hst'
  refine ⟨Store.latest_modulesOf_after cs _, ?_, ?_, fun mustExist => ?_⟩
  · rw [← hnil]
    rcases hfound with ⟨hnone, rfl, -⟩ | ⟨hsome, report, -, rfl, -⟩
    · exact iff_of_true rfl hnone
    · exact iff_of_false (by simp) hsome
  · rcases hfound with ⟨-, rfl, -⟩ | ⟨-, report, rfl, rfl, -⟩
    · exact fun _ h => (by cases h)
    · rintro _ ⟨⟩
      rw [Config.parameters_report, hroutines, flatMap_parameters_filter]
  · have hagain' := (hplaced.opensAgain_of_mustExist hagain mustExist).of_alike halike
    obtain ⟨d'', hreopen, -, h''⟩ := h'.reopen (hname.symm ▸ hagain')
    rw [hname] at hreopen
    refine ⟨d'', hreopen, ?_, h''.answers⟩
    rw [modulesOf?, h''.store, Option.map_some, modulesOf_catalogChanges]

/-- A scan of the routines of a new database that was led through steps. -/
theorem catalogScanned_of_follow (hproper : s.files.IsProper)
    (hconnect : outcome (connect name) s = (.ok d, s₁)) (hpath : d.path = some loc)
    (hnew : s.files.node? loc = none) (hfollow : outcome (d.follow steps) s₁ = (.ok d', s₂))
    (hscan : outcome (scanCatalog m name c) s₂ = (.ok found, s₃)) :
    ∃ modules, CatalogScanned m name c (changesOf steps) modules found s₃ := by
  obtain ⟨rfl, request, asked, hplaced, hd⟩ := new_of_connect hproper hconnect hpath hnew
  obtain ⟨d'', s'', hfollow', hname, hd', halike⟩ :=
    hd.follow (hd.opensAgain_of_follow hplaced hfollow)
  obtain ⟨-, rfl⟩ := Prod.mk.inj (hfollow.symm.trans hfollow')
  rw [← hname] at hscan hplaced ⊢
  exact ⟨_, hd'.catalogScanned (hplaced.of_alike halike) hscan⟩

/-- **When the parameters of all routines are there** after a scan of these: if it found any, or if
there had been none before. -/
theorem CatalogScanned.isTableOf_iff (h : CatalogScanned m name c cs modules found s)
    {rows : List StoredParameter} {now : Int64} {ps : List Parameter}
    (hlast : lastParameters c.databaseName (cs ++ catalogChanges m c found) = (now, ps))
    (hrows : IsTableOf rows c.databaseName now ps) :
    (∃ time, IsTableOf rows c.databaseName time (modules.flatMap Routine.parameters)) ↔
      (found = none → (lastParameters c.databaseName cs).2 = []) := by
  rw [lastParameters_catalogChanges] at hlast
  cases hfound : found with
  | some report =>
    subst hfound
    obtain ⟨rfl, rfl⟩ := Prod.mk.inj hlast
    rw [← h.parameters report rfl]
    exact iff_of_true ⟨_, hrows⟩ (by simp)
  | none =>
    subst hfound
    have hnone : modules.flatMap Routine.parameters = [] :=
      List.flatMap_eq_nil_iff.2 fun r hr =>
        parameters_extract_of_not_mem r.objectId (h.none_iff.1 rfl r hr)
    rw [hnone, show lastParameters c.databaseName cs = (now, ps) from hlast, ← hrows.eq_nil_iff,
      imp_iff_right rfl]
    constructor
    · rintro ⟨time, htable⟩
      exact htable.eq_nil_iff.2 rfl
    · intro hnil
      exact ⟨now, hrows.eq_nil_iff.1 hnil ▸ hrows⟩

/-! ## Lemmas: scans of a directory -/

/-- What a scan of a directory leaves in a database after changes, in its place. -/
theorem hasStore_after_scanDirectory (hproper : s.files.IsProper)
    (hconnect : outcome (connect db) s = (.ok d, u)) (hpath : d.path = some loc)
    (hst : d.file.store? = some (Store.after cs))
    (hscan : (scanDirectory m dir (some db) format c).result s = (.ok report, s₁)) :
    ∃ files, sourceFiles dir c s.files = .ok files ∧ ∃ request asked, ∃ d' : Database,
      IsPlaced s₁.files db request asked loc ∧ d'.name = db ∧
      d'.HasStore s₁ request.canLog loc
        (Store.after (cs ++ directoryChanges m c (routinesOfFiles files))) := by
  obtain ⟨files, -, -, -, -, -, -, hfiles, hreport, -⟩ := scanDirectory_ok_iff.1 hscan
  obtain ⟨request, asked, d', hplaced, hname, hd'⟩ :=
    hasStore_of_scanDirectory hproper hconnect hpath hst hfiles hscan
  refine ⟨files, hfiles, request, asked, d', hplaced, hname, ?_⟩
  rw [hreport, Config.parameters_report] at hd'
  rw [directoryChanges, Store.after, List.foldl_append]
  exact hd'

/-! ## Samples -/

/-- A configuration for the database `N`. -/
def sampleConfig : Config := { Config.standard with databaseName := "N" }

/-- In the sample directory a new database can be led through any steps, and then its routines can
be scanned. -/
theorem scanCatalog_sampleDirectory (steps : List DatabaseStep) (m : Machine) (c : Config) :
    ∃ d s₁ d' s₂ found s₃,
      outcome (connect "/d/n.db") (.start sampleDirectory) = (.ok d, s₁) ∧
      d.path = some ["d", "n.db"] ∧ outcome (d.follow steps) s₁ = (.ok d', s₂) ∧
      outcome (scanCatalog m "/d/n.db" c) s₂ = (.ok found, s₃) := by
  obtain ⟨d, s₁, request, asked, hconnect, hpath, hname, -, hd, hopens⟩ :=
    hasStore_sampleDirectory
  have hagain : ∀ mustExist, .reopen mustExist ∈ steps →
      OpensAgain s₁.files mustExist d.name request.canLog ["d", "n.db"] :=
    fun mustExist _ => hname.symm ▸ hopens mustExist
  obtain ⟨d', s₂, hfollow, hname', hd', halike⟩ := hd.follow hagain
  rw [hname] at hname'
  have hagain := hname'.symm ▸ (hopens true).of_alike halike
  obtain ⟨found, s₃, -, -, hscan, -⟩ := scanCatalog_of_hasStore hd' hagain m c
  exact ⟨d, s₁, d', s₂, found, s₃, hconnect, hpath, hfollow, hname' ▸ hscan⟩

/-- A routine with a parameter is replaced by one without. -/
def replacingSteps : List DatabaseStep :=
  [.change (.routines "N" [⟨1, "p", .procedure, "create proc p @a int as"⟩]),
   .change (.parameters 5 "N" [⟨1, "@a", ""⟩]),
   .change (.routines "N" [⟨1, "p", .procedure, "create proc p as"⟩])]

theorem sourceFiles_sampleTree_noScripts :
    sourceFiles "file:d" .standard sampleTree = .ok [] := by
  have hlength : (sourceFiles "file:d" .standard sampleTree).toOption.map List.length = some 0 := by
    decide +kernel
  obtain ⟨found, hfound, hnone⟩ := exists_of_toOption_map hlength
  rw [hfound, List.eq_nil_of_length_eq_zero hnone]

/-- The sample scripts are scanned into the sample database. -/
theorem hasStore_sampleTree :
    ∃ (cs : List StoreChange) (r : Routine) (d : Database) (s : Session),
      r.IsLastOf (storedRoutines Config.standard.databaseName cs) ∧ '@' ∈ r.definition.toList ∧
      s.files.IsProper ∧ d.name = "d/p.db" ∧
      d.HasStore s true ["d", "p.db"] (Store.after cs) ∧
      (∀ mustExist, OpensAgain s.files mustExist d.name true ["d", "p.db"]) ∧
      sourceFiles "file:d" .standard s.files = .ok [] := by
  have hready := ready_sampleTree
  have hagain := OpensAgain.of_ready hready
  have hconnect := Ready.connect (s := .start sampleTree) hready
  have hstore : HasStore ⟨"d/p.db", some ["d", "p.db"], sampleDatabase, true, false⟩
      (.start sampleTree) true ["d", "p.db"] .empty :=
    ⟨rfl, ⟨["d"], "p.db", rfl⟩, rfl, rfl, hready.fit⟩
  obtain ⟨files, hfiles, hids, hparameters⟩ := sourceFiles_sampleTree
  obtain ⟨s, d, hscan, halike, hd, hstore'⟩ :=
    scanDirectory_of_hasStore hstore (hagain false) hfiles ⟨4, 0⟩ .json
  rw [Config.parameters_report] at hstore'
  -- what lies in the other directory stays
  have halters : Alters true ["d"] "p.db" sampleTree s.files :=
    alters_of_scanDirectory hconnect rfl hscan
  have hnone : sourceFiles "file:d" .standard s.files = .ok [] := by
    refine (sourceFiles_congr (halike.directory? _) (fun p hp => ?_) _).trans
      sourceFiles_sampleTree_noScripts
    have hdir : sampleTree.directory? "file:d" = some ["file:d"] := rfl
    obtain rfl := Option.some.inj (hdir.symm.trans hp)
    exact halters.node?_of_parts (by decide) (by decide)
  -- a routine with parameters has an at sign
  obtain ⟨r, hr, hp⟩ := List.mem_flatMap.1 (hparameters ▸ List.mem_cons_self)
  have hat : '@' ∈ r.definition.toList := Classical.byContradiction fun hnot => by
    have hnil : r.parameters = [] := parameters_extract_of_not_mem r.objectId hnot
    rw [hnil] at hp
    cases hp
  have hstored : storedRoutines Config.standard.databaseName
      (directoryChanges ⟨4, 0⟩ .standard (routinesOfFiles files)) = routinesOfFiles files :=
    storedRoutines_directoryChanges [] ⟨4, 0⟩ .standard _
  exact ⟨directoryChanges ⟨4, 0⟩ .standard (routinesOfFiles files), r, d, s,
    hstored.symm ▸ Routine.isLastOf_of_nodup hids hr, hat, halike.isProper hready.proper, hd,
    hstore', fun mustExist => hd ▸ (hagain mustExist).of_alike halike, hnone⟩

/-- After that a directory without scripts is scanned. Then the database can be opened, and its
routines can be scanned. -/
theorem scanDirectory_sampleTree :
    ∃ (cs : List StoreChange) (r : Routine) (d : Database) (s : Session) (report : Report),
      ∃ s₁ d' found s₂, r.IsLastOf (storedRoutines Config.standard.databaseName cs) ∧
      '@' ∈ r.definition.toList ∧ s.files.IsProper ∧
      outcome (connect "d/p.db") s = (.ok d, s) ∧ d.path = some ["d", "p.db"] ∧
      d.file.store? = some (Store.after cs) ∧
      sourceFiles "file:d" .standard s.files = .ok [] ∧
      outcome (scanDirectory ⟨4, 9⟩ "file:d" (some "d/p.db") .json .standard) s =
        (.ok report, s₁) ∧
      outcome (reopen true "d/p.db") s₁ = (.ok d', s₁) ∧
      outcome (scanCatalog ⟨4, 9⟩ "d/p.db" .standard) s₁ = (.ok found, s₂) := by
  obtain ⟨cs, r, d, s, hr, hat, hproper, hd, hstore, hagain, hnone⟩ := hasStore_sampleTree
  obtain ⟨d', hconnect, -, hstore'⟩ := hstore.reopen (hagain false)
  obtain ⟨s₁, d₁, hscan, halike, hd₁, hstore₁⟩ :=
    scanDirectory_of_hasStore hstore (hagain false) hnone ⟨4, 9⟩ .json
  have hagain₁ := hd₁ ▸ (hagain true).of_alike halike
  obtain ⟨d₂, hreopen, -⟩ := hstore₁.reopen hagain₁
  obtain ⟨found, s₂, -, -, hcatalog, -⟩ :=
    scanCatalog_of_hasStore hstore₁ hagain₁ ⟨4, 9⟩ .standard
  rw [hd₁] at hreopen hcatalog
  rw [hd] at hconnect hscan hreopen hcatalog
  exact ⟨cs, r, d', s, _, s₁, d₂, found, s₂, hr, hat, hproper, hconnect, hstore'.path,
    hstore'.store, hnone, hscan, hreopen, hcatalog⟩

/-! ## Top theorems (proved from the lemmas above) -/

/-- **A scan of stored routines makes parameters of routines**, but for one case. After it the
parameters stored for the name are those of all its routines, unless none of these has an at sign:
then what was stored before stays. -/
theorem isTableOf_scanCatalog_iff (hproper : s.files.IsProper)
    (hconnect : (connect name).result s = (.ok d, s₁)) (hpath : d.path = some loc)
    (hnew : s.files.node? loc = none) (hfollow : (d.follow steps).result s₁ = (.ok d', s₂))
    (hscan : (scanCatalog m name c).result s₂ = (.ok found, s₃)) :
    ∃ modules, CatalogScanned m name c (changesOf steps) modules found s₃ ∧
      ∀ mustExist, ∃ d'' rows, (reopen mustExist name).result s₃ = (.ok d'', s₃) ∧
        (d''.parametersOf c.databaseName).result s₃ = (.ok rows, s₃) ∧
        ((∃ now, IsTableOf rows c.databaseName now (modules.flatMap Routine.parameters)) ↔
          (found = none → (lastParameters c.databaseName (changesOf steps)).2 = [])) := by
  obtain ⟨modules, h⟩ := catalogScanned_of_follow hproper hconnect hpath hnew hfollow hscan
  refine ⟨modules, h, fun mustExist => ?_⟩
  obtain ⟨d'', hreopen, -, hanswers⟩ := h.reopens mustExist
  obtain ⟨rows, hparameters, hrows⟩ := hanswers.parameters c.databaseName
  exact ⟨d'', rows, hreopen, hparameters, h.isTableOf_iff rfl hrows⟩

theorem isTableOf_scanCatalog_iff_sample :
    ∃ d s₁ d' s₂ found s₃, (connect "/d/n.db").result (.start sampleDirectory) = (.ok d, s₁) ∧
      d.path = some ["d", "n.db"] ∧ sampleDirectory.node? ["d", "n.db"] = none ∧
      (d.follow sampleSteps).result s₁ = (.ok d', s₂) ∧
      (scanCatalog ⟨4, 7⟩ "/d/n.db" sampleConfig).result s₂ = (.ok found, s₃) ∧ found ≠ none ∧
      ∃ modules d'' rows now,
        CatalogScanned ⟨4, 7⟩ "/d/n.db" sampleConfig (changesOf sampleSteps) modules found s₃ ∧
        (reopen false "/d/n.db").result s₃ = (.ok d'', s₃) ∧
        (d''.parametersOf "N").result s₃ = (.ok rows, s₃) ∧
        IsTableOf rows "N" now (modules.flatMap Routine.parameters) := by
  obtain ⟨d, s₁, d', s₂, found, s₃, hconnect, hpath, hfollow, hscan⟩ :=
    scanCatalog_sampleDirectory sampleSteps ⟨4, 7⟩ sampleConfig
  obtain ⟨modules, h, hrows⟩ :=
    isTableOf_scanCatalog_iff isProper_sampleDirectory hconnect hpath rfl hfollow hscan
  have hfound : found ≠ none := by
    intro hnone
    refine h.none_iff.1 hnone ⟨1, "p", .procedure, "@a"⟩ ((h.latest.mem_iff _).2 ?_) (by decide)
    decide
  obtain ⟨d'', rows, hreopen, hparameters, htable⟩ := hrows false
  obtain ⟨now, htable⟩ := htable.2 fun hnone => absurd hnone hfound
  exact ⟨d, s₁, d', s₂, found, s₃, hconnect, hpath, rfl, hfollow, hscan, hfound, modules, d'', rows,
    now, h, hreopen, hparameters, htable⟩

/-- Not after every scan of stored routines the parameters are those of the routines. -/
theorem not_forall_isTableOf_scanCatalog :
    ¬∀ (m : Machine) (name : String) (c : Config) (s s₁ s₂ s₃ : Session) (d d' : Database)
        (loc : List String) (steps : List DatabaseStep) (found : Option Report),
      s.files.IsProper → (connect name).result s = (.ok d, s₁) → d.path = some loc →
        s.files.node? loc = none → (d.follow steps).result s₁ = (.ok d', s₂) →
        (scanCatalog m name c).result s₂ = (.ok found, s₃) →
        ∃ modules d'' rows now,
          Latest modules (storedRoutines c.databaseName (changesOf steps)) ∧
          (reopen false name).result s₃ = (.ok d'', s₃) ∧
          (d''.parametersOf c.databaseName).result s₃ = (.ok rows, s₃) ∧
          IsTableOf rows c.databaseName now (modules.flatMap Routine.parameters) := by
  intro hall
  obtain ⟨d, s₁, d', s₂, found, s₃, hconnect, hpath, hfollow, hscan⟩ :=
    scanCatalog_sampleDirectory replacingSteps ⟨4, 7⟩ sampleConfig
  obtain ⟨modules, d'', rows, now, hlatest, hreopen, hparameters, htable⟩ :=
    hall _ _ _ _ _ _ _ _ _ _ _ _ isProper_sampleDirectory hconnect hpath rfl hfollow hscan
  obtain ⟨modules', h⟩ :=
    catalogScanned_of_follow isProper_sampleDirectory hconnect hpath rfl hfollow hscan
  obtain rfl := hlatest.unique h.latest
  have hnone : ∀ r ∈ storedRoutines "N" (changesOf replacingSteps),
      r.IsLastOf (storedRoutines "N" (changesOf replacingSteps)) → '@' ∉ r.definition.toList := by
    decide
  have hfound : found = none := by
    refine h.none_iff.2 fun r hr => ?_
    have hlast := (hlatest.mem_iff r).1 hr
    exact hnone r (List.mem_filter.1 (List.mem_of_getLast? hlast)).1 hlast
  obtain ⟨d₁, hreopen₁, -, hanswers⟩ := h.reopens false
  obtain ⟨hd, -⟩ := Prod.mk.inj (hreopen.symm.trans hreopen₁)
  obtain rfl : d'' = d₁ := Except.ok.inj hd
  obtain ⟨rows', hparameters', hrows⟩ := hanswers.parameters "N"
  obtain ⟨hrows', -⟩ := Prod.mk.inj (hparameters.symm.trans hparameters')
  obtain rfl : rows = rows' := Except.ok.inj hrows'
  have hlast := (h.isTableOf_iff rfl hrows).1 ⟨now, htable⟩ hfound
  exact absurd hlast (by decide)

/-- **A scan of a directory keeps routines** that it does not find. After it the routines stored for
the name are, under each number, the last one that it found, or, where it found none, the one that
was there; and a scan of the stored routines finds the parameters of all of these. -/
theorem mem_modules_scanDirectory (hproper : s.files.IsProper)
    (hconnect : (connect db).result s = (.ok d, u)) (hpath : d.path = some loc)
    (hst : d.file.store? = some (Store.after cs))
    (hscan : (scanDirectory m dir (some db) format c).result s = (.ok report, s₁)) :
    ∃ files modules, sourceFiles dir c s.files = .ok files ∧
      modules.Pairwise (·.objectId < ·.objectId) ∧
      (∀ r, r ∈ modules ↔ r.IsLastOf (routinesOfFiles files) ∨
        (∀ q ∈ routinesOfFiles files, q.objectId ≠ r.objectId) ∧
          r.IsLastOf (storedRoutines c.databaseName cs)) ∧
      (∀ mustExist d' s', (reopen mustExist db).result s₁ = (.ok d', s') →
        s' = s₁ ∧ d'.modulesOf? c.databaseName = some modules ∧
          d'.Answers s₁ (cs ++ directoryChanges m c (routinesOfFiles files))) ∧
      ∀ m' c' found s₂, c'.databaseName = c.databaseName →
        (scanCatalog m' db c').result s₁ = (.ok found, s₂) →
        CatalogScanned m' db c' (cs ++ directoryChanges m c (routinesOfFiles files)) modules found
          s₂ := by
  obtain ⟨files, hfiles, request, asked, d₂, hplaced, rfl, hd₂⟩ :=
    hasStore_after_scanDirectory hproper hconnect hpath hst hscan
  have hlatest := Store.latest_modulesOf_after
    (cs ++ directoryChanges m c (routinesOfFiles files)) c.databaseName
  refine ⟨files, _, hfiles, hlatest.ascends, fun r => ?_, ?_, ?_⟩
  · rw [hlatest.mem_iff, storedRoutines_directoryChanges, Routine.isLastOf_append]
  · intro mustExist d' s' hreopen
    obtain ⟨rfl, hd'⟩ := hd₂.of_reopen hplaced hreopen
    refine ⟨rfl, ?_, hd'.answers⟩
    rw [modulesOf?, hd'.store, Option.map_some]
  · intro m' c' found s₂ hname hcatalog
    rw [← hname]
    exact hd₂.catalogScanned hplaced hcatalog

theorem mem_modules_scanDirectory_sample :
    ∃ (cs : List StoreChange) (d : Database) (s : Session) (report : Report),
      ∃ s₁ d' found s₂ modules, s.files.IsProper ∧ (connect "d/p.db").result s = (.ok d, s) ∧
      d.path = some ["d", "p.db"] ∧ d.file.store? = some (Store.after cs) ∧
      (scanDirectory ⟨4, 9⟩ "file:d" (some "d/p.db") .json .standard).result s = (.ok report, s₁) ∧
      (reopen true "d/p.db").result s₁ = (.ok d', s₁) ∧
      d'.modulesOf? Config.standard.databaseName = some modules ∧
      (scanCatalog ⟨4, 9⟩ "d/p.db" .standard).result s₁ = (.ok found, s₂) ∧ found ≠ none ∧
      CatalogScanned ⟨4, 9⟩ "d/p.db" .standard (cs ++ directoryChanges ⟨4, 9⟩ .standard []) modules
        found s₂ := by
  obtain ⟨cs, r, d, s, report, s₁, d', found, s₂, hr, hat, hproper, hconnect, hpath, hst, hnone,
    hscan, hreopen, hcatalog⟩ := scanDirectory_sampleTree
  obtain ⟨files, modules, hfiles, -, hmem, hopened, hscanned⟩ :=
    mem_modules_scanDirectory hproper hconnect hpath hst hscan
  obtain rfl : [] = files := Except.ok.inj (hnone.symm.trans hfiles)
  obtain ⟨-, hmodules, -⟩ := hopened _ _ _ hreopen
  have h := hscanned ⟨4, 9⟩ .standard found s₂ rfl hcatalog
  have hfound : found ≠ none := fun hfound =>
    h.none_iff.1 hfound r ((hmem r).2 (Or.inr ⟨fun q hq => (by cases hq), hr⟩)) hat
  exact ⟨cs, d, s, report, s₁, d', found, s₂, modules, hproper, hconnect, hpath, hst, hscan,
    hreopen, hmodules, hcatalog, hfound, h⟩

/-- Not after every scan of a directory the routines are those of its scripts. -/
theorem not_forall_latest_scanDirectory :
    ¬∀ (m : Machine) (dir db : String) (format : OutputFormat) (c : Config)
        (cs : List StoreChange) (s u s₁ : Session) (d d' : Database) (loc : List String)
        (report : Report) (files : List SourceFile),
      s.files.IsProper → (connect db).result s = (.ok d, u) → d.path = some loc →
        d.file.store? = some (Store.after cs) → sourceFiles dir c s.files = .ok files →
        (scanDirectory m dir (some db) format c).result s = (.ok report, s₁) →
        (reopen true db).result s₁ = (.ok d', s₁) →
        ∃ modules, d'.modulesOf? c.databaseName = some modules ∧
          Latest modules (routinesOfFiles files) := by
  intro hall
  obtain ⟨cs, r, d, s, report, s₁, d', found, s₂, hr, -, hproper, hconnect, hpath, hst, hnone,
    hscan, hreopen, -⟩ := scanDirectory_sampleTree
  obtain ⟨modules, hmodules, hlatest⟩ :=
    hall _ _ _ _ _ _ _ _ _ _ _ _ _ _ hproper hconnect hpath hst hnone hscan hreopen
  obtain rfl : modules = [] := hlatest.eq_nil_iff.2 rfl
  obtain ⟨files, -, request, asked, d₂, hplaced, hname, hd₂⟩ :=
    hasStore_after_scanDirectory hproper hconnect hpath hst hscan
  obtain ⟨-, hd'⟩ := hd₂.of_reopen (hname.symm ▸ hplaced) (hname.symm ▸ hreopen)
  rw [modulesOf?, hd'.store, Option.map_some] at hmodules
  -- a routine of the first scan is still there
  have hmem := ((Store.latest_modulesOf_after
    (cs ++ directoryChanges ⟨4, 9⟩ .standard (routinesOfFiles files))
    Config.standard.databaseName).eq_nil_iff).1 (Option.some.inj hmodules)
  rw [storedRoutines_directoryChanges, List.append_eq_nil_iff] at hmem
  rw [hmem.1] at hr
  cases hr

end Database

end RoutineParams
