import RoutineParams.Proofs.Regrouping
import RoutineParams.Proofs.Reopening

/-!
# What a scan leaves

A scan of stored routines takes one of a few courses: it finds no file, or a name that leads to none,
or a database that is ready, and then stores the parameters of its routines. A scan of a directory
stores the routines first. What it leaves can be opened again, where its name leads to its file.

    Ready s.files db request loc file → what a scan of stored routines leaves
                                                                        (scanCatalog_of_ready)
    scanDirectory .. = .ok report ↔ each of its steps succeeds               (scanDirectory_ok_iff)
    after a scan of a directory the database is ready                    (ready_of_scanDirectory)
-/

namespace RoutineParams

/-- The database `name` holds the store `st`: so it does when it is opened. -/
def Session.Holds (s : Session) (name : String) (st : Store) : Prop :=
  ∃ d s', (Database.connect name).result s = (.ok d, s') ∧ d.file.store? = some st

variable {m m' : Machine} {dir db : String} {format : OutputFormat} {c c' : Config}
  {s s₁ : Session} {report : Report} {st : Store} {request : DatabaseRequest}

theorem Ready.holds {t : FileTree} {loc : List String} {file : DatabaseFile}
    (h : Ready t db request loc file) (hst : file.store? = some st) (printed : List Printed) :
    Session.Holds ⟨t, printed⟩ db st :=
  ⟨_, _, Ready.connect (s := ⟨t, printed⟩) h, hst⟩

/-! ## Lemmas: scans of stored routines -/

theorem Config.parameters_report (c : Config) (m : Machine) (rs : List Routine) :
    (c.report m rs).parameters = rs.flatMap Routine.parameters :=
  Report.parameters_ofRoutines ..

/-- After the parameters of stored routines were stored the log is emptied. -/
theorem outcome_emptyLog_of_update {d d₁ : Database} {u : Session} {name : String} {now : Int64}
    {ps : List Parameter} (hopen : outcome (Database.connectExisting db) s = (.ok d, u))
    (hupdate : outcome (d.update (.parameters now name ps)) u = (.ok d₁, s₁)) :
    outcome d₁.emptyLog s₁ = (.ok ⟨⟩, s₁) := by
  refine Database.outcome_emptyLog ?_ s₁
  rw [Database.isStuck_of_update hupdate]
  exact Database.isStuck_of_connectExisting hopen ((Database.of_update hupdate).2.2.2 rfl)

/-- **What a scan of stored routines does** with a database that can be opened again: if there are
routines that may have parameters, their parameters are stored, and else nothing. -/
theorem scanCatalog_of_hasStore {d : Database} {canLog : Bool} {loc : List String}
    (h : d.HasStore s canLog loc st)
    (hagain : Database.OpensAgain s.files true d.name canLog loc) (m : Machine) (c : Config) :
    ∃ found s' st', ∃ d' : Database, (scanCatalog m d.name c).result s = (.ok found, s') ∧
      s.files.Alike s'.files ∧ d'.name = d.name ∧ d'.HasStore s' canLog loc st' ∧
      ((st.routinesOf c.databaseName = [] ∧ found = none ∧ st' = st) ∨
        st.routinesOf c.databaseName ≠ [] ∧
          ∃ r, r = c.report m (st.routinesOf c.databaseName) ∧ found = some r ∧
            st' = st.storeParameters m.now c.databaseName r.parameters) := by
  obtain ⟨d₁, hopen, hname, h₁⟩ := h.reopen hagain
  have hopen : outcome (Database.connectExisting d.name) s = _ := hopen
  have hread : outcome (Action.within (.readingCatalog d.name) do
      (← Database.connectExisting d.name).routinesOf c.databaseName) s =
      (.ok (st.routinesOf c.databaseName), s) := by
    rw [Action.outcome_within_ok_iff, outcome_bind_of_ok hopen]
    exact Database.outcome_routinesOf h₁.store _ _
  have hagain := (Action.outcome_within_ok_iff (.openingDatabase d.name)).2 hopen
  have hscan : outcome (scanCatalog m d.name c) s = _ := outcome_bind_of_ok hread
  cases hroutines : st.routinesOf c.databaseName with
  | nil =>
    rw [hroutines] at hscan
    exact ⟨none, _, st, d, hscan, .refl _, rfl, ⟨h.path, h.place, h.canWrite, h.store, h.fit⟩,
      Or.inl ⟨rfl, rfl, rfl⟩⟩
  | cons r rs =>
    obtain ⟨d₂, s', hupdate, hname₂, h₂, halike⟩ :=
      h₁.update (.parameters m.now c.databaseName (c.report m (r :: rs)).parameters)
    rw [hroutines] at hscan
    have hrest : outcome (scanCatalog m d.name c) s = (.ok (some (c.report m (r :: rs))),
        ⟨s'.files, s'.printed ++ [.summary (.ofReport c.databaseName (c.report m (r :: rs)))] ++
          [.text "Success.\n"]⟩) := by
      have hempty := outcome_emptyLog_of_update hopen hupdate
      rw [hscan]
      simp [outcome_bind, hagain, hupdate, hempty, Except.map]
    exact ⟨_, _, _, d₂, hrest, halike, hname₂.trans hname,
      ⟨h₂.path, h₂.place, h₂.canWrite, h₂.store, h₂.fit⟩, Or.inr ⟨by simp, _, rfl, rfl, rfl⟩⟩

/-- What a scan of the routines in a ready database finds and leaves. -/
theorem scanCatalog_of_ready {loc : List String} {file : DatabaseFile}
    (h : Ready s.files db request loc file) (hst : file.store? = some st) (m : Machine)
    (c : Config) :
    ∃ found s' st', (scanCatalog m db c).result s = (.ok found, s') ∧ s'.Holds db st' ∧
      ((st.routinesOf c.databaseName = [] ∧ found = none ∧ st' = st) ∨
        ∃ r, r = c.report m (st.routinesOf c.databaseName) ∧ found = some r ∧
          st' = st.storeParameters m.now c.databaseName r.parameters) := by
  have hd : Database.HasStore ⟨db, some loc, file, true, false⟩ s request.canLog loc st :=
    ⟨rfl, h.exists_eq_append, rfl, hst, h.fit⟩
  obtain ⟨found, s', st', d', hscan, halike, hname, hd', hfound⟩ :=
    scanCatalog_of_hasStore hd (.of_ready h true) m c
  have hagain : Database.OpensAgain s'.files false d'.name request.canLog loc :=
    hname ▸ (Database.OpensAgain.of_ready h false).of_alike halike
  obtain ⟨d'', hopen, -, hd''⟩ := hd'.reopen hagain
  rw [hname] at hopen
  exact ⟨found, s', st', hscan, ⟨d'', s', hopen, hd''.store⟩, hfound.imp_right And.right⟩

/-- A scan of stored routines fails where no file is at the path, and changes nothing. -/
theorem scanCatalog_of_not_hasFile (h : s.files.hasFile db = false) (m : Machine) (c : Config) :
    (scanCatalog m db c).result s =
      (.error (.within (.readingCatalog db) (.sourceNotFound db)), s) := by
  have hopen := Database.connectExisting_of_not_hasFile h
  show outcome (scanCatalog m db c) s = _
  simp [scanCatalog, outcome_bind, Action.outcome_within, hopen, Except.mapError]

/-- It fails too where the name may not be opened without making a file. -/
theorem scanCatalog_of_nameFault {fault : NameFault} (hfile : s.files.hasFile db = true)
    (h : DatabaseRequest.ofName .existing db = .error fault) (m : Machine) (c : Config) :
    (scanCatalog m db c).result s =
      (.error (.within (.readingCatalog db) (.unopened db fault)), s) := by
  have hopen : outcome (Database.connectExisting db) s = (.error (.unopened db fault), s) := by
    rw [Database.connectExisting_of_hasFile hfile]
    simp [Database.openIn, h]
  show outcome (scanCatalog m db c) s = _
  simp [scanCatalog, outcome_bind, Action.outcome_within, hopen, Except.mapError]

/-! ## Lemmas: databases without a file -/

theorem holds_of_noFile (hasked : request.AskedBy db) (hpath : request.path = none) (s : Session) :
    s.Holds db .empty :=
  ⟨_, s, Database.outcome_openIn_of_noFile hasked hpath (Or.inl rfl) s, rfl⟩

/-- A database without a file holds no routines when it is opened. -/
theorem scanCatalog_of_noFile (hasked : request.AskedBy db) (hpath : request.path = none)
    (hfile : s.files.hasFile db = true) (m : Machine) (c : Config) :
    ∃ s', (scanCatalog m db c).result s = (.ok none, s') := by
  have hopen := Database.outcome_openIn_of_noFile hasked hpath (Or.inr rfl) s
  rw [← Database.connectExisting_of_hasFile hfile] at hopen
  have hread : outcome (Action.within (.readingCatalog db) do
      (← Database.connectExisting db).routinesOf c.databaseName) s = (.ok [], s) := by
    rw [Action.outcome_within_ok_iff, outcome_bind, hopen]
    have hblank : Database.blank.store? = some .empty := rfl
    exact Database.outcome_routinesOf (d := ⟨db, none, Database.blank, true, false⟩) hblank _ _
  have hscan : outcome (scanCatalog m db c) s = _ := outcome_bind _ _ s
  rw [hread] at hscan
  exact ⟨_, hscan⟩

/-! ## Lemmas: scans of a directory -/

/-- The scripts below a directory depend on what lies there only. -/
theorem sourceFiles_congr {t t' : FileTree} (hdir : t'.directory? dir = t.directory? dir)
    (hnode : ∀ p, t.directory? dir = some p → t'.node? p = t.node? p) (c : Config) :
    sourceFiles dir c t' = sourceFiles dir c t := by
  rw [sourceFiles, sourceFiles, hdir]
  cases hp : t.directory? dir with
  | none => rfl
  | some p => simp only [FileTree.filesBelow, hnode p hp]

/-- After the parameters were stored the log is emptied. -/
theorem outcome_emptyLog_of_updates {d d₁ d₂ : Database} {now : Int64} {ps : List Parameter}
    {rs : List Routine} {name : String} {u u₁ u₂ : Session}
    (hconnect : outcome (Database.connect db) s = (.ok d, u))
    (hroutines : outcome (d.update (.routines name rs)) u = (.ok d₁, u₁))
    (hparameters : outcome (d₁.update (.parameters now name ps)) u₁ = (.ok d₂, u₂)) :
    outcome d₂.emptyLog u₂ = (.ok ⟨⟩, u₂) := by
  obtain ⟨-, -, hwrite₁, -⟩ := Database.of_update hroutines
  obtain ⟨-, -, -, hwrite⟩ := Database.of_update hparameters
  refine Database.outcome_emptyLog ?_ u₂
  rw [Database.isStuck_of_update hparameters, Database.isStuck_of_update hroutines]
  exact Database.isStuck_of_openIn hconnect (hwrite₁ ▸ hwrite rfl)

/-- What a scan of a directory into a database does. -/
theorem scanDirectory_ok_iff :
    (scanDirectory m dir (some db) format c).result s = (.ok report, s₁) ↔
      ∃ files d d₁ d₂ u u₁ u₂, sourceFiles dir c s.files = .ok files ∧
        report = c.report m (routinesOfFiles files) ∧
        outcome (Database.connect db) s = (.ok d, u) ∧
        outcome (d.update (.routines c.databaseName (routinesOfFiles files))) u = (.ok d₁, u₁) ∧
        outcome (d₁.update (.parameters m.now c.databaseName report.parameters)) u₁ =
          (.ok d₂, u₂) ∧
        s₁ = ⟨u₂.files, u₂.printed ++ [.summary (.ofReport c.databaseName report)]⟩ := by
  constructor
  · intro h
    obtain ⟨files, s', hask, h⟩ := outcome_bind_ok h
    rw [Action.outcome_ask] at hask
    obtain ⟨hfiles, rfl⟩ := Prod.mk.inj hask
    obtain ⟨d, u, hconnect, h⟩ := outcome_bind_ok h
    obtain ⟨d₁, u₁, hroutines, h⟩ := outcome_bind_ok h
    obtain ⟨d₂, u₂, hparameters, h⟩ := outcome_bind_ok h
    obtain ⟨_, u₃, hempty, h⟩ := outcome_bind_ok h
    have hconnect := (Action.outcome_within_ok_iff _).1 hconnect
    cases hempty.symm.trans (outcome_emptyLog_of_updates hconnect hroutines hparameters)
    cases h
    exact ⟨files, d, d₁, d₂, u, u₁, u₂, hfiles, rfl, hconnect, hroutines, hparameters, rfl⟩
  · rintro ⟨files, d, d₁, d₂, u, u₁, u₂, hfiles, rfl, hconnect, hroutines, hparameters, rfl⟩
    have hwithin := (Action.outcome_within_ok_iff (.openingDatabase db)).2 hconnect
    show outcome (scanDirectory m dir (some db) format c) s = _
    have hempty := outcome_emptyLog_of_updates hconnect hroutines hparameters
    simp [scanDirectory, outcome_bind, hfiles, hwithin, hroutines, hparameters, hempty, Except.map]

/-- **A scan of a directory into a fit database succeeds**, and leaves all other files as they
are. -/
theorem scanDirectory_of_fit {canLog : Bool} {files : List SourceFile} {d : Database} {u : Session}
    {above : List String} {last : String} (hfiles : sourceFiles dir c s.files = .ok files)
    (hconnect : outcome (Database.connect db) s = (.ok d, u)) (hwrite : d.canWrite = true)
    (hpath : d.path = some (above ++ [last])) (hst : d.file.store? = some st)
    (hfit : Fit canLog u.files (above ++ [last]) d.file) (m : Machine) (format : OutputFormat) :
    ∃ s₁, (scanDirectory m dir (some db) format c).result s =
        (.ok (c.report m (routinesOfFiles files)), s₁) ∧ u.files.Alike s₁.files := by
  obtain ⟨file₁, u₁, hroutines, hst₁, hfit₁, halike₁⟩ := Database.update_of_fit hwrite hpath hst
    hfit (.routines c.databaseName (routinesOfFiles files))
  obtain ⟨file₂, u₂, hparameters, -, -, halike₂⟩ := Database.update_of_fit
    (d := { d with file := file₁ }) hwrite hpath hst₁ hfit₁
    (.parameters m.now c.databaseName (c.report m (routinesOfFiles files)).parameters)
  exact ⟨_, scanDirectory_ok_iff.2 ⟨files, d, _, _, u, u₁, u₂, hfiles, rfl, hconnect,
    hroutines, hparameters, rfl⟩, halike₁.trans halike₂⟩

/-- **What a scan of a directory does** with a database that can be opened again. -/
theorem scanDirectory_of_hasStore {d : Database} {canLog : Bool} {loc : List String}
    {files : List SourceFile} (h : d.HasStore s canLog loc st)
    (hagain : Database.OpensAgain s.files false d.name canLog loc)
    (hfiles : sourceFiles dir c s.files = .ok files) (m : Machine) (format : OutputFormat) :
    ∃ s₁, ∃ d₁ : Database, (scanDirectory m dir (some d.name) format c).result s =
        (.ok (c.report m (routinesOfFiles files)), s₁) ∧
      s.files.Alike s₁.files ∧ d₁.name = d.name ∧ d₁.HasStore s₁ canLog loc
        ((st.storeRoutines c.databaseName (routinesOfFiles files)).storeParameters m.now
          c.databaseName (c.report m (routinesOfFiles files)).parameters) := by
  obtain ⟨d', hconnect, hname, h'⟩ := h.reopen hagain
  obtain ⟨d₁, u₁, hroutines, hname₁, h₁, halike₁⟩ :=
    h'.update (.routines c.databaseName (routinesOfFiles files))
  obtain ⟨d₂, u₂, hparameters, hname₂, h₂, halike₂⟩ :=
    h₁.update (.parameters m.now c.databaseName (c.report m (routinesOfFiles files)).parameters)
  exact ⟨_, d₂, scanDirectory_ok_iff.2 ⟨files, d', d₁, d₂, s, u₁, u₂, hfiles, rfl, hconnect,
    hroutines, hparameters, rfl⟩, halike₁.trans halike₂, (hname₂.trans hname₁).trans hname,
    ⟨h₂.path, h₂.place, h₂.canWrite, h₂.store, h₂.fit⟩⟩

/-- A scan of a directory into a database without a file leaves all files. -/
theorem scanDirectory_of_path_none {files : List SourceFile} {d : Database} {u : Session}
    (hfiles : sourceFiles dir c s.files = .ok files)
    (hconnect : outcome (Database.connect db) s = (.ok d, u)) (hpath : d.path = none) (m : Machine)
    (format : OutputFormat) :
    (scanDirectory m dir (some db) format c).result s =
      (.ok (c.report m (routinesOfFiles files)), ⟨s.files, s.printed ++
        [.summary (.ofReport c.databaseName (c.report m (routinesOfFiles files)))]⟩) := by
  obtain ⟨rfl, rfl⟩ := Database.of_openIn_noFile hconnect hpath
  obtain ⟨file₁, hroutines, hst₁⟩ := Database.update_of_noFile
    (d := ⟨db, none, Database.blank, true, false⟩) rfl rfl rfl u
    (.routines c.databaseName (routinesOfFiles files))
  obtain ⟨file₂, hparameters, -⟩ := Database.update_of_noFile
    (d := ⟨db, none, file₁, true, false⟩) rfl rfl hst₁ u
    (.parameters m.now c.databaseName (c.report m (routinesOfFiles files)).parameters)
  exact scanDirectory_ok_iff.2
    ⟨files, _, _, _, u, u, u, hfiles, rfl, hconnect, hroutines, hparameters, rfl⟩

/-- A scan of a directory into a database without a file succeeds, and leaves all files. -/
theorem scanDirectory_of_noFile {files : List SourceFile} (hasked : request.AskedBy db)
    (hpath : request.path = none) (hfiles : sourceFiles dir c s.files = .ok files)
    (m : Machine) (format : OutputFormat) :
    ∃ s₁, (scanDirectory m dir (some db) format c).result s =
      (.ok (c.report m (routinesOfFiles files)), s₁) ∧ s₁.files = s.files := by
  have hconnect : outcome (Database.connect db) s = _ :=
    Database.outcome_openIn_of_noFile hasked hpath (Or.inl rfl) s
  exact ⟨_, scanDirectory_of_path_none hfiles hconnect rfl m format, rfl⟩

/-- A scan of a directory alters the file of the database, and what lies beside it. -/
theorem alters_of_scanDirectory {canLog : Bool} {d : Database} {u : Session} {above : List String}
    {last : String} (hconnect : outcome (Database.connect db) s = (.ok d, u))
    (hpath : d.path = some (above ++ [last]))
    (hscan : (scanDirectory m dir (some db) format c).result s = (.ok report, s₁)) :
    Alters canLog above last u.files s₁.files := by
  obtain ⟨files, d', d₁, d₂, u', u₁, u₂, -, -, hconnect', hroutines, hparameters, rfl⟩ :=
    scanDirectory_ok_iff.1 hscan
  obtain ⟨hd, rfl⟩ := Prod.mk.inj (hconnect.symm.trans hconnect')
  obtain rfl : d = d' := Except.ok.inj hd
  obtain ⟨-, hpath₁, -⟩ := Database.of_update hroutines
  have hfirst : Alters canLog above last u.files u₁.files := Database.alters_update hpath hroutines
  have hsecond : Alters canLog above last u₁.files u₂.files :=
    Database.alters_update (hpath₁.trans hpath) hparameters
  exact hfirst.trans hsecond

/-- **What a scan of a directory leaves** in a database with a file: the routines of the scripts
and their parameters are stored, one after the other. -/
theorem hasStore_of_scanDirectory {files : List SourceFile} {d : Database} {u : Session}
    {loc : List String} (hproper : s.files.IsProper)
    (hconnect : outcome (Database.connect db) s = (.ok d, u)) (hpath : d.path = some loc)
    (hst : d.file.store? = some st) (hfiles : sourceFiles dir c s.files = .ok files)
    (hscan : (scanDirectory m dir (some db) format c).result s = (.ok report, s₁)) :
    ∃ request asked, ∃ d₂ : Database, Database.IsPlaced s₁.files db request asked loc ∧
      d₂.name = db ∧ d₂.HasStore s₁ request.canLog loc
        ((st.storeRoutines c.databaseName (routinesOfFiles files)).storeParameters m.now
          c.databaseName report.parameters) := by
  obtain ⟨files', d', d₁, d₂, u', u₁, u₂, hfiles', -, hconnect', hroutines, hparameters, hs₁⟩ :=
    scanDirectory_ok_iff.1 hscan
  obtain rfl : files = files' := Except.ok.inj (hfiles.symm.trans hfiles')
  obtain ⟨hd, rfl⟩ := Prod.mk.inj (hconnect.symm.trans hconnect')
  obtain rfl : d = d' := Except.ok.inj hd
  obtain ⟨-, hpath₁, hwrite₁, -⟩ := Database.of_update hroutines
  obtain ⟨-, -, -, hwrite₂⟩ := Database.of_update hparameters
  have hwrite : d.canWrite = true := hwrite₁ ▸ hwrite₂ rfl
  obtain ⟨hname, request, asked, hplaced, hopened⟩ :=
    Database.placed_of_connect hproper hconnect hpath hwrite
  obtain ⟨above, last, rfl⟩ := hplaced.exists_eq_append
  have halters : Alters request.canLog above last u.files s₁.files :=
    alters_of_scanDirectory hconnect hpath hscan
  obtain ⟨file₁, rfl, hst₁, hopened₁, -⟩ := Database.opened_of_update hpath hst hopened hroutines
  obtain ⟨file₂, rfl, hst₂, -, hfit⟩ := Database.opened_of_update
    (d := { d with file := file₁ }) hpath hst₁ hopened₁ hparameters
  subst hs₁
  exact ⟨request, asked, { d with file := file₂ },
    hplaced.of_alters (FileTree.not_isDirectory_of_file hopened.node) halters, hname,
    hpath, ⟨above, last, rfl⟩, hwrite, hst₂, hfit rfl⟩

/-- The store that a scan of a directory leaves in a database with a file, which is ready if it can
be opened again. -/
theorem ready_of_scanDirectory {files : List SourceFile} {path : String}
    (hproper : s.files.IsProper) (hname : DatabaseRequest.ofName .create db = .ok request)
    (hpath : request.path = some path) (hholds : s.Holds db st)
    (hfiles : sourceFiles dir c s.files = .ok files)
    (hscan : (scanDirectory m dir (some db) format c).result s = (.ok report, s₁))
    (hreopens : s₁.files.CanReopen db) :
    ∃ loc file, Ready s₁.files db request loc file ∧
      file.store? = some ((st.storeRoutines c.databaseName (routinesOfFiles files)).storeParameters
        m.now c.databaseName report.parameters) := by
  obtain ⟨d, u, hconnect, hst⟩ := hholds
  obtain ⟨loc, hloc⟩ := Database.exists_path_of_connect hname hpath hconnect
  obtain ⟨request', asked, d₂, hplaced, -, hd₂⟩ :=
    hasStore_of_scanDirectory hproper hconnect hloc hst hfiles hscan
  obtain rfl : request = request' := Except.ok.inj (hname.symm.trans hplaced.requested)
  exact ⟨loc, d₂.file, hplaced.ready hreopens hd₂.fit, hd₂.store⟩

/-- A database that is named by a path can be opened again if a file is there. -/
theorem canReopen_of_hasFile {d : Database} {u : Session} {t : FileTree}
    (hconnect : outcome (Database.connect db) s = (.ok d, u)) (huri : ¬DatabaseRequest.IsUri db)
    (hfile : t.hasFile db = true) : t.CanReopen db := by
  obtain ⟨request, hrequest, -⟩ := Database.of_openIn hconnect
  obtain ⟨-, hname⟩ := DatabaseRequest.ofName_congr huri hrequest
  refine ⟨hfile, _, hname .existing, fun path hpath => ?_, fun path hpath => by cases hpath⟩
  unfold DatabaseRequest.ofPath at hpath
  split at hpath
  · cases hpath
  · rwa [← Option.some.inj hpath]

end RoutineParams
