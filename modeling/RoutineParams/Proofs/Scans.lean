import RoutineParams.Proofs.Agreement
import RoutineParams.Proofs.Changes
import RoutineParams.Proofs.Outputs

/-!
# All outputs of a scan

A scan of a directory finds the same whatever becomes of it. What is printed in either format is
read back as the parameters of the report, a database has the table of them afterwards, whatever it
held before, and the line that is printed then counts them and their routines. How the work is
shared out does not matter.

    s.Prints m dir c report                       both formats are read back as `report.parameters`
    s.Stores m dir db c report s₁                 the table, when the database is opened again too,
                                                  and the summary
    scanDirectory m dir (some db) f c = Prod.fst <$> scanInto m dir db c        (scanDirectory_eq)
-/

namespace RoutineParams

/-! ## Definitions -/

/-- A scan of the scripts in a directory into a database, which is given as the scan leaves it. -/
def scanInto (m : Machine) (dir db : String) (c : Config) : Action (Report × Database) := do
  let files ← Action.ask (sourceFiles dir c)
  let routines := routinesOfFiles files
  let report := c.report m routines
  let d ← Action.within (.openingDatabase db) (Database.connect db)
  let d ← d.update (.routines c.databaseName routines)
  let d ← d.update (.parameters m.now c.databaseName report.parameters)
  d.emptyLog
  Action.print (.summary (.ofReport c.databaseName report))
  pure (report, d)

namespace Session

/-- A scan without a database gives `report`, and what it prints is read back as its parameters: in
one format as one array, in the other one line by line. -/
def Prints (s : Session) (m : Machine) (dir : String) (c : Config) (report : Report) : Prop :=
  (∃ text, (scanDirectory m dir none .json c).result s =
      (.ok report, ⟨s.files, s.printed ++ [.text text]⟩) ∧
    Parameter.listOfText? text = some report.parameters) ∧
  ∃ text, (scanDirectory m dir none .ndjson c).result s =
      (.ok report, ⟨s.files, s.printed ++ [.text text]⟩) ∧
    Parameter.listOfLines? text = some report.parameters

/-- A scan into the database `db` that gave `report` has left the table of its parameters there. So
it answers, and it does when it is opened again, if it has a file. -/
def Stores (s : Session) (m : Machine) (dir db : String) (c : Config) (report : Report)
    (s₁ : Session) : Prop :=
  ∃ d rows, (scanInto m dir db c).result s = (.ok (report, d), s₁) ∧
    IsTableOf rows c.databaseName m.now report.parameters ∧
    (d.parametersOf c.databaseName).result s₁ = (.ok rows, s₁) ∧
    (d.path ≠ none → ∀ mustExist d' s', (Database.reopen mustExist db).result s₁ = (.ok d', s') →
      s' = s₁ ∧ (d'.parametersOf c.databaseName).result s₁ = (.ok rows, s₁)) ∧
    (d.path ≠ none → s₁.files.CanReopen db →
      ∀ mustExist, ∃ d', (Database.reopen mustExist db).result s₁ = (.ok d', s₁))

/-- All that a scan printed is a line that is read back as the summary of `report` on the routines
`rs`, at any time. -/
def Summarizes (s : Session) (c : Config) (rs : List Routine) (report : Report) (s₁ : Session) :
    Prop :=
  ∃ p, s₁.printed = s.printed ++ [p] ∧ ∀ duration < 2 ^ 64,
    Summary.ofText? (Printed.render duration p) = some
      { databaseName := c.databaseName
        routines := rs.length
        parameters := report.parameters.length
        withDefaults := report.parameters.countP Parameter.hasDefault
        partials := rs.countP fun r => (extract r.objectId r.definition).diagnostic.isSome }

end Session

variable {m m' : Machine} {dir db name asked : String} {format : OutputFormat} {c c' : Config}
  {s s' s₁ : Session} {report : Report} {st : Store} {d d' : Database}
  {files : List SourceFile} {loc : List String}

/-! ## Lemmas: scans that print -/

/-- What a scan reports does not depend on how the work is shared out. -/
theorem Config.report_eq (c : Config) (m : Machine) (rs : List Routine) :
    c.report m rs = Report.sequential rs := Report.ofRoutines_eq_sequential ..

/-- A scan that prints gives the report and prints its parameters. -/
theorem scanDirectory_none (hfiles : sourceFiles dir c s.files = .ok files) (m : Machine)
    (format : OutputFormat) :
    (scanDirectory m dir none format c).result s =
      (.ok (c.report m (routinesOfFiles files)), ⟨s.files, s.printed ++
        [.text (writeParameters format (c.report m (routinesOfFiles files)).parameters)]⟩) := by
  show outcome (scanDirectory m dir none format c) s = _
  simp [scanDirectory, outcome_bind, hfiles, Except.map]

/-- A scan that succeeds has read the scripts, and reports on their routines. -/
theorem report_of_scanDirectory {db : Option String}
    (h : (scanDirectory m dir db format c).result s = (.ok report, s₁)) :
    ∃ files, sourceFiles dir c s.files = .ok files ∧
      report = Report.sequential (routinesOfFiles files) := by
  cases db with
  | none =>
    obtain ⟨files, s', hask, h⟩ := outcome_bind_ok h
    rw [Action.outcome_ask] at hask
    obtain ⟨hfiles, rfl⟩ := Prod.mk.inj hask
    refine ⟨files, hfiles, ?_⟩
    cases h
    exact Config.report_eq ..
  | some db =>
    obtain ⟨files, -, -, -, -, -, -, hfiles, hreport, -⟩ := scanDirectory_ok_iff.1 h
    exact ⟨files, hfiles, hreport.trans (Config.report_eq ..)⟩

theorem prints_of_sourceFiles (hfiles : sourceFiles dir c s.files = .ok files) (m : Machine) :
    s.Prints m dir c (Report.sequential (routinesOfFiles files)) := by
  have hprint := scanDirectory_none hfiles m
  rw [Config.report_eq] at hprint
  exact ⟨⟨_, hprint .json, listOfText?_writeParameters _⟩,
    ⟨_, hprint .ndjson, listOfLines?_writeParameters _⟩⟩

/-! ## Lemmas: scans into a database -/

/-- A scan into a database gives it back, if it is asked for. -/
theorem scanDirectory_eq (m : Machine) (dir db : String) (format : OutputFormat) (c : Config) :
    scanDirectory m dir (some db) format c = Prod.fst <$> scanInto m dir db c := by
  simp [scanDirectory, scanInto]

/-- Opening a database prints nothing. -/
theorem Database.printed_of_connect (h : outcome (connect name) s = (.ok d, s')) :
    s'.printed = s.printed := by
  rw [connect] at h
  unfold openIn at h
  split at h
  · cases h
  split at h
  · obtain ⟨-, -, -, -, -, -, -, -, hprinted, -⟩ := outcome_openFile_ok_iff.1 h
    exact hprinted
  · split at h
    · cases h
    · cases h
      rfl

/-- **What a change makes of a database**, with or without a file: its store is changed. -/
theorem Database.store?_of_update (hst : d.file.store? = some st) {change : StoreChange}
    (h : outcome (d.update change) s = (.ok d', s')) :
    d'.file.store? = some (st.apply change) ∧ s'.printed = s.printed := by
  unfold update at h
  split at h
  · rename_i hnothing
    cases h
    exact ⟨by rw [hst, Store.apply_of_isNothing hnothing], rfl⟩
  split at h
  · obtain ⟨file, happly, hfile, -⟩ := DatabaseFile.exists_apply hst change
    obtain ⟨_, u, hanswer, h⟩ := outcome_bind_ok h
    rw [happly, outcome_answer] at hanswer
    cases hanswer
    split at h
    · obtain ⟨_, u, hput, h⟩ := outcome_bind_ok h
      cases h
      exact ⟨hfile, (outcome_onFiles_ok_iff.1 hput).2⟩
    · cases h
      exact ⟨hfile, rfl⟩
  · cases h

/-- What is stored last for a name is its table. -/
theorem Store.isTableOf_storeParameters (st : Store) (now : Int64) (name : String)
    (ps : List Parameter) :
    IsTableOf ((st.storeParameters now name ps).parametersOf name) name now ps := by
  rw [parametersOf_storeParameters]
  exact isTableOf_putAll name now ps

/-- A scan into a database that succeeds leaves a store in it, and prints the summary only. -/
theorem scanInto_of_scanDirectory (hfiles : sourceFiles dir c s.files = .ok files)
    (hholds : s.Holds db st)
    (h : (scanDirectory m dir (some db) format c).result s = (.ok report, s₁)) :
    (∃ d, outcome (scanInto m dir db c) s = (.ok (report, d), s₁) ∧
      d.file.store? = some ((st.storeRoutines c.databaseName
        (routinesOfFiles files)).storeParameters m.now c.databaseName report.parameters) ∧
      ∃ d' u, outcome (Database.connect db) s = (.ok d', u) ∧ d.path = d'.path ∧
        d'.file.store? = some st) ∧
    s₁.printed = s.printed ++ [.summary (.ofReport c.databaseName report)] := by
  obtain ⟨d', u, hconnect, hst⟩ := hholds
  obtain ⟨files', d'', d₁, d₂, u', u₁, u₂, hfiles', rfl, hconnect', hroutines, hparameters, rfl⟩ :=
    scanDirectory_ok_iff.1 h
  obtain rfl : files = files' := Except.ok.inj (hfiles.symm.trans hfiles')
  obtain ⟨hd, rfl⟩ := Prod.mk.inj (hconnect.symm.trans hconnect')
  obtain rfl : d' = d'' := Except.ok.inj hd
  have hwithin := (Action.outcome_within_ok_iff (.openingDatabase db)).2 hconnect
  obtain ⟨-, hpath₁, -⟩ := Database.of_update hroutines
  obtain ⟨-, hpath₂, -⟩ := Database.of_update hparameters
  obtain ⟨hst₁, hprinted₁⟩ := Database.store?_of_update hst hroutines
  obtain ⟨hst₂, hprinted₂⟩ := Database.store?_of_update hst₁ hparameters
  refine ⟨⟨d₂, ?_, hst₂, d', u, hconnect, hpath₂.trans hpath₁, hst⟩, ?_⟩
  · have hempty := outcome_emptyLog_of_updates hconnect hroutines hparameters
    simp [scanInto, outcome_bind, hfiles, hwithin, hroutines, hparameters, hempty, Except.map]
  · rw [hprinted₂, hprinted₁, Database.printed_of_connect hconnect]

/-- **A scan into a database stores the table** of the parameters that it reports. -/
theorem stores_of_scanDirectory (hproper : s.files.IsProper)
    (hfiles : sourceFiles dir c s.files = .ok files) (hholds : s.Holds db st)
    (h : (scanDirectory m dir (some db) format c).result s = (.ok report, s₁)) :
    s.Stores m dir db c report s₁ := by
  obtain ⟨⟨d, hinto, hst, d', u, hconnect, hpath, hst'⟩, -⟩ :=
    scanInto_of_scanDirectory hfiles hholds h
  have hplaced : ∀ {loc}, d.path = some loc → _ := fun hloc =>
    hasStore_of_scanDirectory hproper hconnect (hpath ▸ hloc) hst' hfiles h
  refine ⟨d, _, hinto, Store.isTableOf_storeParameters .., Database.outcome_parametersOf hst _ _,
    fun hne mustExist d₁ s' hreopen => ?_, fun hne hagain mustExist => ?_⟩
  · obtain ⟨loc, hloc⟩ := Option.ne_none_iff_exists'.1 hne
    obtain ⟨request, asked, d₂, hplaced, rfl, hd₂⟩ := hplaced hloc
    obtain ⟨rfl, hd₁⟩ := hd₂.of_reopen hplaced hreopen
    exact ⟨rfl, Database.outcome_parametersOf hd₁.store _ _⟩
  · obtain ⟨loc, hloc⟩ := Option.ne_none_iff_exists'.1 hne
    obtain ⟨request, asked, d₂, hplaced, rfl, hd₂⟩ := hplaced hloc
    obtain ⟨d₁, hreopen, -⟩ := hd₂.reopen (.of_ready (hplaced.ready hagain hd₂.fit) mustExist)
    exact ⟨d₁, hreopen⟩

/-- **The line that a scan into a database prints** tells of the routines and their parameters. -/
theorem summarizes_of_printed {rs : List Routine}
    (hreport : report = Report.sequential rs)
    (hprinted : s₁.printed = s.printed ++ [.summary (.ofReport c.databaseName report)])
    (hroutines : report.routines < 2 ^ 64) (hparameters : report.parameters.length < 2 ^ 64) :
    s.Summarizes c rs report s₁ := by
  subst hreport
  have hfits : (Summary.ofReport c.databaseName (.sequential rs)).Fits :=
    ⟨hroutines, hparameters, (List.length_filter_le _ _).trans_lt hparameters,
      List.countP_le_length.trans_lt hroutines⟩
  refine ⟨_, hprinted, fun duration hduration => ?_⟩
  rw [Summary.ofText?_render hfits hduration, Summary.ofReport, Report.withDefaults,
    ← List.countP_eq_length_filter]
  rfl

/-! ## Top theorem (proved from the lemmas above) -/

/-- **All outputs of a scan agree**, however the work is shared out: what is printed in either
format, what a database holds afterwards and what is printed then. -/
theorem outputs_of_scanDirectory (hproper : s.files.IsProper) {into : Option String}
    (hscan : (scanDirectory m dir into format c).result s = (.ok report, s₁)) :
    ∃ files, sourceFiles dir c s.files = .ok files ∧ ∀ m' threads batchSize,
      let c' := { c with threads, batchSize }
      s.Prints m' dir c' report ∧
      ∀ db st, s.Holds db st → ∀ format' report' s₂,
        (scanDirectory m' dir (some db) format' c').result s = (.ok report', s₂) →
          report' = report ∧ s.Stores m' dir db c' report s₂ ∧
            (report.routines < 2 ^ 64 → report.parameters.length < 2 ^ 64 →
              s.Summarizes c' (routinesOfFiles files) report s₂) := by
  obtain ⟨files, hfiles, rfl⟩ := report_of_scanDirectory hscan
  refine ⟨files, hfiles, fun m' threads batchSize => ?_⟩
  have hfiles' : sourceFiles dir { c with threads, batchSize } s.files = .ok files := hfiles
  refine ⟨prints_of_sourceFiles hfiles' m', fun db st hholds format' report' s₂ hscan' => ?_⟩
  obtain ⟨files', hfiles'', rfl⟩ := report_of_scanDirectory hscan'
  obtain rfl : files = files' := Except.ok.inj (hfiles'.symm.trans hfiles'')
  exact ⟨rfl, stores_of_scanDirectory hproper hfiles' hholds hscan',
    summarizes_of_printed rfl (scanInto_of_scanDirectory hfiles' hholds hscan').2⟩

theorem outputs_of_scanDirectory_sample :
    ∃ report s₁ files s₂, sampleTree.IsProper ∧
      (scanDirectory ⟨4, 0⟩ "sql" none .json .standard).result (.start sampleTree) =
        (.ok report, s₁) ∧
      sourceFiles "sql" .standard sampleTree = .ok files ∧
      (Session.start sampleTree).Holds "d/p.db" .empty ∧ s₂.files.CanReopen "d/p.db" ∧
      report.parameters =
        [⟨868333254, "@b", "2"⟩, ⟨868333254, "@a", ""⟩, ⟨144637411, "@c", "1"⟩] ∧
      let c' := { Config.standard with threads := some 2, batchSize := 1 }
      (scanDirectory ⟨2, 60⟩ "sql" (some "d/p.db") .json c').result (.start sampleTree) =
        (.ok report, s₂) ∧
      (Session.start sampleTree).Prints ⟨2, 60⟩ "sql" c' report ∧
      (Session.start sampleTree).Stores ⟨2, 60⟩ "sql" "d/p.db" c' report s₂ ∧
      (Session.start sampleTree).Summarizes c' (routinesOfFiles files) report s₂ := by
  obtain ⟨files, hfiles, hids, hparameters⟩ := routines_sampleTree
  have hlength : (routinesOfFiles files).length = 3 := by
    simpa using congrArg List.length hids
  have hready := ready_sampleTree
  have hconnect := Ready.connect (s := .start sampleTree) hready
  have hholds : (Session.start sampleTree).Holds "d/p.db" .empty := hready.holds rfl []
  have hscan := scanDirectory_none (s := .start sampleTree) hfiles ⟨4, 0⟩ .json
  have hfiles' : sourceFiles "sql" { Config.standard with threads := some 2, batchSize := 1 }
      (Session.start sampleTree).files = .ok files := hfiles
  obtain ⟨s₂, hscan₂, halike⟩ :=
    scanDirectory_of_fit hfiles' hconnect rfl rfl rfl hready.fit ⟨2, 60⟩ .json
  have hreopens : s₂.files.CanReopen "d/p.db" := by
    refine canReopen_of_hasFile hconnect (by decide) ?_
    rw [halike.hasFile]
    exact hready.hasFile
  obtain ⟨files', hfiles'', hall⟩ := outputs_of_scanDirectory hready.proper hscan
  obtain rfl : files = files' := Except.ok.inj (hfiles.symm.trans hfiles'')
  obtain ⟨hprints, hdatabase⟩ := hall ⟨2, 60⟩ (some 2) 1
  obtain ⟨hreport, hstores, hsummary⟩ := hdatabase "d/p.db" .empty hholds .json _ s₂ hscan₂
  rw [hreport] at hscan₂
  rw [Config.report_eq] at *
  refine ⟨_, _, files, s₂, hready.proper, hscan, hfiles, hholds, hreopens, hparameters, hscan₂,
    hprints, hstores, hsummary ?_ ?_⟩
  · show (routinesOfFiles files).length < 2 ^ 64
    rw [hlength]
    decide
  · show ((routinesOfFiles files).flatMap Routine.parameters).length < 2 ^ 64
    rw [hparameters]
    decide

end RoutineParams
