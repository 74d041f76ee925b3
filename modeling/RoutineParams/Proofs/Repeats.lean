import RoutineParams.Proofs.DirectoryRepeats

/-!
# Scans that are repeated

A scan that is done again right after it succeeded finds and prints the same, and leaves the same
rows but for the times. A scan of stored routines puts back what it has read, so it can be repeated
whatever lies elsewhere, if its database can be opened again.

    a scan of stored routines that is done again                            (repeats_scanCatalog)
-/

namespace RoutineParams

variable {s s' s₁ s₂ u : Session} {loc : List String} {name db src : String}
  {t t' : FileTree} {d d' : Database} {st : Store} {m m' : Machine} {c : Config}
  {format format' : OutputFormat} {report : Report} {found : Option Report}

/-! ## Lemmas: scans of stored routines -/

/-- A scan of stored routines prints what it found only. -/
theorem printed_of_scanCatalog (hproper : s.files.IsProper)
    (h : (scanCatalog m db c).result s = (.ok found, s₁)) :
    s₁.printed = s.printed ++ catalogPieces c found := by
  obtain ⟨d, u, rs, hopen, -, h⟩ := scanCatalog_ok_iff.1 h
  have huses := Database.usesAt_connectExisting hproper hopen
  rcases h with ⟨-, rfl, rfl⟩ | ⟨-, d', d'', u', u'', rfl, hopen', hupdate, rfl⟩
  · rw [huses.printed]
  · have huses' := Database.usesAt_connectExisting (huses.isProper hproper).1 hopen'
    obtain ⟨-, -, -, hprinted, -⟩ := Database.of_update_ok hupdate rfl
    rw [hprinted, huses'.printed, huses.printed]

/-- **A scan of stored routines that has a report** leaves it in its database, and all other
files. -/
theorem of_scanCatalog_some (hproper : s.files.IsProper)
    (hrows : s.files.HoldsRows (Database.place? .existing db s.files))
    (hscan : (scanCatalog m db c).result s = (.ok (some report), s₁)) :
    ∃ (u u' : Session) (st : Store) (request : DatabaseRequest) (asked : String)
      (dir : List String) (last : String) (d' d₁ : Database),
      Database.place? .existing db s.files = some (dir ++ [last]) ∧
      u.files.hasFile db = true ∧
      Database.Usable .existing db u u' request asked dir last d'.file ∧
      Alters request.canLog dir last u.files s₁.files ∧ d₁.name = db ∧
      st.routinesOf c.databaseName ≠ [] ∧
      report = Report.sequential (st.routinesOf c.databaseName) ∧
      d₁.HasStore s₁ request.canLog (dir ++ [last])
        (st.storeParameters m.now c.databaseName report.parameters) := by
  obtain ⟨d, u, rs, hopen, hroutines, ⟨-, hnone, -⟩ |
    ⟨hne, d', d'', u', u'', hsome, hopen', hupdate, rfl⟩⟩ := scanCatalog_ok_iff.1 hscan
  · cases hnone
  obtain ⟨-, hopen⟩ := Database.openIn_of_connectExisting hopen
  obtain ⟨hhas, hopen'⟩ := Database.openIn_of_connectExisting hopen'
  have huses := Database.usesAt_openIn hproper hopen
  have hproper' := (huses.isProper hproper).1
  -- both times the same was read
  obtain ⟨hpath, hsame⟩ := Database.openIn_again hproper hopen rfl hopen'
  rw [← DatabaseFile.routinesOf_marked _ false, ← hsame, DatabaseFile.routinesOf_marked]
    at hroutines
  cases hloc : d'.path with
  | none =>
    obtain ⟨rfl, -⟩ := Database.of_openIn_noFile hopen' hloc
    cases hroutines
    exact absurd rfl hne
  | some loc =>
    have hwrite : d'.canWrite = true := (Database.of_update hupdate).2.2.2 rfl
    have hplace : Database.place? .existing db s.files = some loc :=
      (Database.place?_of_openIn hopen).trans (hpath.symm.trans hloc)
    obtain ⟨st, hst⟩ := hrows loc hplace
    have hst' := Database.store?_of_openIn hproper' hopen' hloc hwrite (huses.holdsAt hplace hst)
    obtain rfl : st.routinesOf c.databaseName = rs := by
      rw [DatabaseFile.routinesOf, hst'] at hroutines
      exact Except.ok.inj hroutines
    obtain ⟨hname, request, asked, dir, last, rfl, husable⟩ :=
      Database.usable_of_openIn hproper' hopen' hloc hwrite
    have halters : Alters request.canLog dir last u'.files u''.files :=
      Database.alters_update hloc hupdate
    obtain ⟨file, rfl, hst'', -, hfit⟩ :=
      Database.opened_of_update hloc hst' husable.opened hupdate
    obtain rfl := Option.some.inj hsome
    exact ⟨u, u', st, request, asked, dir, last, d', { d' with file }, hplace, hhas, husable,
      husable.alters.trans halters, hname, hne, Config.report_eq .., hloc, ⟨dir, last, rfl⟩,
      hwrite, hst'', hfit rfl⟩

/-- After a scan of stored routines that has a report its database can be opened again where it is
named by a path. -/
theorem canOpen_of_scanCatalog (hproper : s.files.IsProper)
    (hrows : s.files.HoldsRows (Database.place? .existing db s.files))
    (hscan : (scanCatalog m db c).result s = (.ok (some report), s₁))
    (huri : ¬DatabaseRequest.IsUri db) : s₁.CanOpen true db := by
  obtain ⟨u, u', st, request, asked, dir, last, d', d₁, -, hhas, husable, halters, hname, -, -,
    hd₁⟩ := of_scanCatalog_some hproper hrows hscan
  obtain ⟨p, content, hfind⟩ : ∃ p content, u.files.find db = .ok (p, .file content) := by
    rw [FileTree.hasFile] at hhas
    split at hhas
    · exact ⟨_, _, ‹_›⟩
    · cases hhas
  obtain ⟨hway, hnode⟩ := FileTree.way_of_find husable.proper.root hfind
  -- the path of the name is the one that was asked for
  have hasked : db = asked := by
    obtain ⟨rfl, -⟩ := DatabaseRequest.ofName_congr huri husable.requested
    have hasked := husable.path
    unfold DatabaseRequest.ofPath at hasked
    split at hasked
    · cases hasked
    · exact Option.some.inj hasked
  obtain ⟨rfl, -⟩ := hway.location?_eq husable.proper rfl hnode (hasked ▸ husable.located)
  exact husable.canOpen hd₁ hname halters.home
    (fun _ => halters.isDirectory husable.notDirectory) huri hway true

/-- **A scan of stored routines that is done again** finds and leaves the same. -/
theorem repeats_scanCatalog (hproper : s.files.IsProper)
    (hrows : s.files.HoldsRows (Database.place? .existing db s.files))
    (hscan : (scanCatalog m db c).result s = (.ok found, s₁)) (hopen : s₁.CanOpen true db)
    (m' : Machine) :
    s.Repeats s₁ (Database.place? .existing db s.files) (scanCatalog m' db c) found := by
  obtain ⟨d', u', hreopen⟩ := hopen
  have hreopen : outcome (Database.reopen true db) s₁ = (.ok d', u') := hreopen
  have hopen' : outcome (Database.connectExisting db) s₁ = (.ok d', u') := hreopen
  have hprinted := printed_of_scanCatalog hproper hscan
  cases found with
  | none =>
    obtain ⟨d, u, rs, hopen, hroutines, ⟨rfl, -, hs₁⟩ | ⟨-, _, _, _, _, hsome, -⟩⟩ :=
      scanCatalog_ok_iff.1 hscan
    swap
    · cases hsome
    have hfiles : s₁.files = u.files := by rw [hs₁]
    obtain ⟨hpath, hsame⟩ := Database.openIn_again hproper
      (Database.openIn_of_connectExisting hopen).2 hfiles
      (Database.openIn_of_connectExisting hopen').2
    rw [← DatabaseFile.routinesOf_marked _ false, ← hsame, DatabaseFile.routinesOf_marked]
      at hroutines
    have huses := Database.usesAt_connectExisting hproper hopen
    obtain ⟨hproper', hhome⟩ := huses.isProper hproper
    rw [← hfiles] at hproper' hhome
    have huses' := Database.usesAt_connectExisting hproper' hopen'
    have hagain : (scanCatalog m' db c).result s₁ = _ :=
      scanCatalog_ok_iff.2 ⟨d', u', [], hopen', hroutines, Or.inl ⟨rfl, rfl, rfl⟩⟩
    refine ⟨_, _, hagain, hprinted, printed_of_scanCatalog hproper' hagain, fun loc hplace => ?_⟩
    obtain ⟨st, hst⟩ := hrows loc hplace
    have hst₁ : s₁.files.HoldsAt loc st := hfiles ▸ huses.holdsAt hplace hst
    have hplace' : Database.place? .existing db s₁.files = some loc := by
      rw [Database.place?_of_openIn (Database.openIn_of_connectExisting hopen').2, hpath,
        ← Database.place?_of_openIn (Database.openIn_of_connectExisting hopen).2, hplace]
    exact ⟨st, st, hst₁, huses'.holdsAt hplace' hst₁, .refl st⟩
  | some report =>
    obtain ⟨u, u₁, st, request, asked, dir, last, d, d₁, hplace, -, husable, halters, rfl, hne,
      rfl, hd₁⟩ := of_scanCatalog_some hproper hrows hscan
    have hagain := @Database.Usable.opensAgain _ _ _ _ _ _ _ _ _ true husable s₁ _ halters.home
      (fun _ => halters.isDirectory husable.notDirectory) hreopen
    obtain ⟨found, s₂, st', d₂, hscan', -, -, hd₂, hfound⟩ :=
      scanCatalog_of_hasStore hd₁ hagain m' c
    have hproper' := halters.isProper husable.proper
    have hprinted' := printed_of_scanCatalog hproper' hscan'
    rcases hfound with ⟨hnil, -⟩ | ⟨-, report, hreport, rfl, rfl⟩
    · exact absurd hnil hne
    obtain rfl := hreport.trans (Config.report_eq ..)
    refine ⟨s₂, _, hscan', hprinted, hprinted', fun loc hloc => ?_⟩
    obtain rfl := Option.some.inj (hplace.symm.trans hloc)
    refine ⟨_, _, hd₁.holdsAt, hd₂.holdsAt, ?_⟩
    rw [Store.storeParameters_storeParameters]
    exact Store.sameRows_storeParameters ..

/-- The stored routine can be scanned. -/
theorem scanCatalog_cleanTree : ∃ found s₁,
    (scanCatalog ⟨4, 0⟩ "d/p.db" rerunConfig).result (.start cleanTree) = (.ok found, s₁) ∧
      found ≠ none := by
  have hd : Database.HasStore ⟨"d/p.db", some ["d", "p.db"], takenDatabase, true, false⟩
      (.start cleanTree) true ["d", "p.db"] (Store.empty.storeRoutines "N" [looseRoutine]) :=
    ⟨rfl, ⟨["d"], "p.db", rfl⟩, rfl, takenDatabase_spec.1, ready_cleanTree.fit⟩
  obtain ⟨found, s₁, _, _, hcatalog, -, -, -, hcases⟩ :=
    scanCatalog_of_hasStore hd (.of_ready ready_cleanTree true) ⟨4, 0⟩ rerunConfig
  refine ⟨found, s₁, hcatalog, ?_⟩
  rcases hcases with ⟨hnil, -⟩ | ⟨-, report, -, rfl, -⟩
  · exact absurd (routinesOf_looseRoutine.1.symm.trans hnil) (by simp)
  · simp

/-- A scan of the routines stored there can be done once only too. -/
theorem exists_not_repeats_catalog :
    ∃ s₁, (Session.start staleTree).files.HoldsRows
        (Database.place? .existing journalUri (Session.start staleTree).files) ∧
      (scanCatalog ⟨4, 0⟩ journalUri .standard).result (.start staleTree) = (.ok none, s₁) ∧
      ∀ place, ¬(Session.start staleTree).Repeats s₁ place
        (scanCatalog ⟨4, 0⟩ journalUri .standard) none := by
  have hpermissions : (some "d/p.db-journal").any (!staleTree.hasNode ·) = false := rfl
  have hopen := openIn_staleTree (ofName_journalUri (Or.inr rfl)) rfl (by decide) rfl rfl
    hpermissions
  have hexisting :=
    (Database.connectExisting_of_hasFile (s := .start staleTree) rerunTree_spec.2.2.2.2).trans hopen
  have hroutines : takenDatabase.routinesOf Config.standard.databaseName = .ok [] := by
    rw [DatabaseFile.routinesOf, takenDatabase_spec.1]
    exact congrArg Except.ok routinesOf_looseRoutine.2
  have hscan : (scanCatalog ⟨4, 0⟩ journalUri .standard).result (.start staleTree) = _ :=
    scanCatalog_ok_iff.2 ⟨_, _, [], hexisting, hroutines, Or.inl ⟨rfl, rfl, rfl⟩⟩
  refine ⟨_, (holdsRows_staleTree hopen rfl).2, hscan, ?_⟩
  rintro place ⟨s₂, -, hscan', -⟩
  obtain ⟨d, u, -, hopen', -⟩ := scanCatalog_ok_iff.1 hscan'
  exact not_canOpen_journalUri rfl true ⟨d, u, hopen'⟩

/-! ## Top theorem (proved from the lemmas above) -/

/-- **Scanning again changes nothing.** A scan of a directory that is done again right after it
succeeded gives the same report, prints the same summary and leaves all rows of the database but for
the times, if it reads neither the file of the database nor those beside it; and so does a scan of
stored routines. Each time it must be possible to open the database again. So it is where the
database is named by a path that leads to it, once it was changed. -/
theorem repeats_of_scan (hproper : s.files.IsProper) (hsound : s.files.IsSound) (m m' : Machine)
    (c : Config) :
    (∀ src db format report s₁, s.files.HoldsRows (Database.place? .create db s.files) →
      (∀ loc, Database.place? .create db s.files = some loc → s.files.ScansApart src c loc) →
      (scanDirectory m src (some db) format c).result s = (.ok report, s₁) →
      (s₁.CanOpen false db → ∀ format', s.Repeats s₁ (Database.place? .create db s.files)
        (scanDirectory m' src (some db) format' c) report) ∧
      (¬DatabaseRequest.IsUri db →
        (∀ loc, Database.place? .create db s.files = some loc → s.files.Way db loc) →
        s₁.CanOpen false db)) ∧
    ∀ db found s₁, s.files.HoldsRows (Database.place? .existing db s.files) →
      (scanCatalog m db c).result s = (.ok found, s₁) →
      (s₁.CanOpen true db → s.Repeats s₁ (Database.place? .existing db s.files)
        (scanCatalog m' db c) found) ∧
      (¬DatabaseRequest.IsUri db → found ≠ none → s₁.CanOpen true db) := by
  refine ⟨fun src db format report s₁ hrows hapart hscan => ⟨fun hopen format' => ?_, ?_⟩,
    fun db found s₁ hrows hscan => ⟨fun hopen => ?_, fun huri hfound => ?_⟩⟩
  · exact repeats_scanDirectory hproper hsound hrows hapart hscan hopen m' format'
  · exact canOpen_of_scanDirectory hproper hrows hscan
  · exact repeats_scanCatalog hproper hrows hscan hopen m'
  · obtain ⟨report, rfl⟩ := Option.ne_none_iff_exists'.1 hfound
    exact canOpen_of_scanCatalog hproper hrows hscan huri

/-- A script and a stored routine are scanned twice. -/
theorem repeats_of_scan_sample :
    ∃ report s₁ found s₂, cleanTree.IsProper ∧ cleanTree.IsSound ∧
      cleanTree.HoldsRows (some ["d", "p.db"]) ∧
      cleanTree.ScansApart "sql" rerunConfig ["d", "p.db"] ∧
      (scanDirectory ⟨4, 0⟩ "sql" (some "d/p.db") .json rerunConfig).result (.start cleanTree) =
        (.ok report, s₁) ∧ report.routines = 1 ∧
      (Session.start cleanTree).Repeats s₁ (some ["d", "p.db"])
        (scanDirectory ⟨2, 60⟩ "sql" (some "d/p.db") .json rerunConfig) report ∧
      (scanCatalog ⟨4, 0⟩ "d/p.db" rerunConfig).result (.start cleanTree) = (.ok found, s₂) ∧
      found ≠ none ∧
      (Session.start cleanTree).Repeats s₂ (some ["d", "p.db"])
        (scanCatalog ⟨2, 60⟩ "d/p.db" rerunConfig) found := by
  have hproper := ready_cleanTree.proper
  have hsound : cleanTree.IsSound := isSound_rerunTree _ (Or.inl rfl)
  have huri : ¬DatabaseRequest.IsUri "d/p.db" := by decide
  have hrows : cleanTree.HoldsRows (some ["d", "p.db"]) := by
    rintro loc ⟨⟩
    exact ⟨_, holdsAt_rerunTree (.of_isSettled ready_cleanTree.fit.tidy.isSettled)⟩
  have hcreate : Database.place? .create "d/p.db" (Session.start cleanTree).files = _ :=
    place?_cleanTree (Or.inl rfl)
  have hexisting : Database.place? .existing "d/p.db" (Session.start cleanTree).files = _ :=
    place?_cleanTree (Or.inr rfl)
  obtain ⟨report, s₁, hscan, hroutines⟩ := scanDirectory_cleanTree
  obtain ⟨found, s₂, hcatalog, hsome⟩ := scanCatalog_cleanTree
  -- both are done again
  obtain ⟨hdirectory, hstored⟩ :=
    repeats_of_scan (s := .start cleanTree) hproper hsound ⟨4, 0⟩ ⟨2, 60⟩ rerunConfig
  obtain ⟨hrepeats, hopens⟩ := hdirectory "sql" "d/p.db" .json report s₁ (hcreate.symm ▸ hrows)
    (fun loc hloc => by
      obtain rfl := Option.some.inj (hcreate.symm.trans hloc)
      exact scansApart_rerunTree _ _ _) hscan
  obtain ⟨hrepeats', hopens'⟩ := hstored "d/p.db" found s₂ (hexisting.symm ▸ hrows) hcatalog
  have hway : ∀ loc, Database.place? .create "d/p.db" (Session.start cleanTree).files = some loc →
      cleanTree.Way "d/p.db" loc := by
    intro loc hloc
    obtain rfl := Option.some.inj (hcreate.symm.trans hloc)
    exact (FileTree.way_of_find hproper.root rfl).1
  have hagain := hrepeats (hopens huri hway) .json
  have hagain' := hrepeats' (hopens' huri hsome)
  rw [hcreate] at hagain
  rw [hexisting] at hagain'
  exact ⟨report, s₁, found, s₂, hproper, hsound, hrows, scansApart_rerunTree _ _ _, hscan,
    hroutines, hagain, hcatalog, hsome, hagain'⟩

/-- **Not every scan repeats itself.** A script that lies in place of the journal of the database is
read by the first scan only, since the database takes it away. A URI that asks for the permissions
of such a journal can be opened once only, by either scan. -/
theorem not_forall_repeats :
    (¬∀ (m m' : Machine) (src db : String) (format : OutputFormat) (c : Config) (s s₁ : Session)
        (report : Report), s.files.IsProper → s.files.IsSound →
      s.files.HoldsRows (Database.place? .create db s.files) →
      (∀ loc, Database.place? .create db s.files = some loc → ¬s.files.Discovers src c loc) →
      (scanDirectory m src (some db) format c).result s = (.ok report, s₁) →
      s₁.CanOpen false db → s.Repeats s₁ (Database.place? .create db s.files)
        (scanDirectory m' src (some db) format c) report) ∧
    (¬∀ (m m' : Machine) (src db : String) (format : OutputFormat) (c : Config) (s s₁ : Session)
        (report : Report), s.files.IsProper → s.files.IsSound →
      s.files.HoldsRows (Database.place? .create db s.files) →
      (∀ loc, Database.place? .create db s.files = some loc → s.files.ScansApart src c loc) →
      (scanDirectory m src (some db) format c).result s = (.ok report, s₁) →
      s.Repeats s₁ (Database.place? .create db s.files)
        (scanDirectory m' src (some db) format c) report) ∧
    ¬∀ (m m' : Machine) (db : String) (c : Config) (s s₁ : Session) (found : Option Report),
      s.files.IsProper → s.files.IsSound →
      s.files.HoldsRows (Database.place? .existing db s.files) →
      (scanCatalog m db c).result s = (.ok found, s₁) →
      s.Repeats s₁ (Database.place? .existing db s.files) (scanCatalog m' db c) found := by
  have hproper : staleTree.IsProper := isProper_rerunTree _ _
  have hsound : staleTree.IsSound := isSound_rerunTree _ (Or.inr ⟨_, rfl⟩)
  refine ⟨fun h => ?_, fun h => ?_, fun h => ?_⟩
  · obtain ⟨report, s₁, hrows, hnot, hscan, hopen, hrepeats⟩ := exists_not_repeats_journal
    exact hrepeats _ (h _ _ _ _ _ _ _ _ _ hproper hsound hrows hnot hscan hopen)
  · obtain ⟨report, s₁, hrows, hapart, hscan, hrepeats⟩ := exists_not_repeats_uri
    exact hrepeats _ (h _ _ _ _ _ _ _ _ _ hproper hsound hrows hapart hscan)
  · obtain ⟨s₁, hrows, hscan, hrepeats⟩ := exists_not_repeats_catalog
    exact hrepeats _ (h _ _ _ _ _ _ _ hproper hsound hrows hscan)

end RoutineParams
