import RoutineParams.Proofs.DatabaseNames

/-!
# Databases in a session

What the name of a database asks for lies where a path leads. A change of a fit file is a change of
its store, which leaves it fit; and a ready database opens, which gives the file that was left and
leaves everything as it is.

    Fit canLog s.files loc d.file → d.update c gives d with st.apply c             (update_of_fit)
    Ready s.files name request loc file → connecting gives file and leaves s       (Ready.connect)
-/

namespace RoutineParams

open Storage (Fault)

namespace Database

/-! ## Lemmas: opening -/

theorem exists_of_location? {t : FileTree} {path : String} {loc : List String}
    (h : location? t path = some loc) : ∃ dir last, loc = dir ++ [last] :=
  (List.eq_nil_or_concat' loc).resolve_left (FileTree.of_location? h).1

/-- What is found at a place, or made there because nothing lies there. -/
theorem of_locate {mode : AccessMode} {loc : List String} {t t' : FileTree} {content : Content}
    (h : locate mode loc t = .ok (content, t')) :
    (∃ p, t.find (pathText loc) = .ok (p, .file content) ∧ t' = t) ∨
      t.find (pathText loc) = .error .notFound ∧ t' = t.put loc (.file (.bytes .empty)) ∧
        mode = .create ∧ content = .bytes .empty ∧ ∃ x, t.fileToWrite (pathText loc) = .ok x := by
  unfold locate at h
  simp only at h
  split at h
  · rename_i hfind
    obtain ⟨rfl, rfl⟩ := Prod.mk.inj (Except.ok.inj h)
    exact Or.inl ⟨_, hfind, rfl⟩
  · cases h
  · rename_i hfind
    split at h
    · rename_i x hwrite
      obtain ⟨rfl, rfl⟩ := Prod.mk.inj (Except.ok.inj h)
      exact Or.inr ⟨hfind, rfl, rfl, rfl, x, hwrite⟩
    · cases h
  · cases h

theorem outcome_openFile_ok_iff {name path : String} {request : DatabaseRequest} {s s' : Session}
    {d : Database} :
    outcome (openFile name path request) s = (.ok d, s') ↔
      ∃ loc content t c, location? s.files path = some loc ∧
        request.permissionsOf.any (!s.files.hasNode ·) = false ∧
        locate request.mode loc s.files = .ok (content, t) ∧
        outcome (Opening.openContent ⟨request.mode ≠ .readOnly, request.isFixed, request.canLog⟩
          loc content) t = (.ok c, s'.files) ∧
        s'.printed = s.printed ∧ d = ⟨name, some loc, c.file, c.canWrite, c.isStuck⟩ := by
  rw [openFile, outcome_bind, outcome_get]
  simp only
  generalize (⟨request.mode ≠ .readOnly, request.isFixed, request.canLog⟩ : Access) = access
  cases location? s.files path with
  | none => simp
  | some loc =>
    cases hpermissions : request.permissionsOf.any (!s.files.hasNode ·) with
    | true => simp
    | false =>
      simp only [Option.some.injEq, exists_and_left, exists_eq_left',
        Bool.false_eq_true, if_false, true_and]
      cases locate request.mode loc s.files with
      | error fault => simp
      | ok found =>
        obtain ⟨content, t⟩ := found
        simp only [outcome_bind, Action.modifyFiles, outcome_modify, outcome_onFiles]
        cases hopen : outcome (Opening.openContent access loc content) t with
        | mk r t' =>
          obtain ⟨files', printed'⟩ := s'
          cases r with
          | error fault => simp [Except.mapError, hopen]
          | ok c => simpa [Except.mapError, hopen, eq_comm, and_assoc] using and_rotate

/-- **A fit file is opened**, which leaves everything as it is. -/
theorem openFile_of_fit (request : DatabaseRequest) {path : String} {s : Session}
    {loc : List String} {file : DatabaseFile} (hmode : request.mode ≠ .readOnly)
    (hfixed : request.isFixed = false) (hlocation : location? s.files path = some loc)
    (hpermissions : request.permissionsOf.any (!s.files.hasNode ·) = false)
    (hway : s.files.Way (pathText loc) loc) (hfit : Fit request.canLog s.files loc file)
    (name : String) :
    outcome (openFile name path request) s = (.ok ⟨name, some loc, file, true, false⟩, s) := by
  obtain ⟨dir, last, rfl⟩ := exists_of_location? hlocation
  have haccess : (⟨request.mode ≠ .readOnly, request.isFixed, request.canLog⟩ : Access) =
      Opening.changing request.canLog := by
    rw [hfixed, decide_eq_true hmode]
    rfl
  have hopen := Opening.openContent_of_fit hfit
  rw [← haccess] at hopen
  have hlocate : locate request.mode (dir ++ [last]) s.files =
      .ok (.database file, s.files) := by
    simp only [locate, FileTree.find_of_way hway hfit.node]
  exact outcome_openFile_ok_iff.2 ⟨_, _, _, ⟨file, true, false⟩, hlocation, hpermissions, hlocate,
    hopen, rfl, rfl⟩

theorem openIn_eq {name path : String} {given : AccessMode} {request : DatabaseRequest}
    (hname : DatabaseRequest.ofName given name = .ok request) (hpath : request.path = some path) :
    openIn given name = openFile name path request := by
  simp [openIn, hname, hpath]

/-- What a database that could be opened asked for. One without a file is not only read. -/
theorem of_openIn {name : String} {given : AccessMode} {s s' : Session} {d : Database}
    (h : outcome (openIn given name) s = (.ok d, s')) :
    ∃ request, DatabaseRequest.ofName given name = .ok request ∧
      (request.path = none → request.mode ≠ .readOnly) := by
  unfold openIn at h
  split at h
  · cases h
  · rename_i request hname
    refine ⟨request, hname, fun hpath hmode => ?_⟩
    rw [hpath] at h
    simp only [hmode, if_true] at h
    cases h

/-- A database without a file is opened as a new one. -/
theorem outcome_openIn_of_noFile {name : String} {given : AccessMode} {request : DatabaseRequest}
    (hasked : request.AskedBy name) (hpath : request.path = none)
    (hgiven : DatabaseRequest.IsGiven given) (s : Session) :
    outcome (openIn given name) s = (.ok ⟨name, none, blank, true, false⟩, s) := by
  obtain ⟨mode, hmode, hname⟩ := hasked given hgiven
  simp [openIn, hname, hpath, hmode]

/-- A database without a file is a new one, which is not kept. -/
theorem of_openIn_noFile {name : String} {given : AccessMode} {s s' : Session} {d : Database}
    (h : outcome (openIn given name) s = (.ok d, s')) (hpath : d.path = none) :
    d = ⟨name, none, blank, true, false⟩ ∧ s' = s := by
  unfold openIn at h
  split at h
  · cases h
  split at h
  · obtain ⟨_, _, _, _, _, _, _, _, _, rfl⟩ := outcome_openFile_ok_iff.1 h
    cases hpath
  · split at h <;> cases h
    exact ⟨rfl, rfl⟩

/-- The log of a database that can be changed is in order. -/
theorem isStuck_of_openIn {name : String} {given : AccessMode} {s s' : Session} {d : Database}
    (h : outcome (openIn given name) s = (.ok d, s')) (hwrite : d.canWrite = true) :
    d.isStuck = false := by
  unfold openIn at h
  split at h
  · cases h
  split at h
  · obtain ⟨loc, content, t, c, hlocation, -, -, hopen, -, rfl⟩ := outcome_openFile_ok_iff.1 h
    obtain ⟨dir, last, rfl⟩ := exists_of_location? hlocation
    exact (Opening.changing_of_openContent hopen hwrite).2
  · split at h <;> cases h
    rfl

end Database

/-! ## Changes -/

theorem Store.apply_of_isNothing {c : StoreChange} (h : c.isNothing = true) (st : Store) :
    st.apply c = st := by
  cases c with
  | routines name rs =>
    obtain rfl : rs = [] := List.isEmpty_iff.1 h
    rfl
  | parameters now name ps => cases h

/-- A file that holds a store takes every change of it. -/
theorem DatabaseFile.exists_apply {file : DatabaseFile} {st : Store} (hst : file.store? = some st)
    (c : StoreChange) :
    ∃ file', file.apply c = .ok file' ∧ file'.store? = some (st.apply c) ∧
      file'.image.logged = file.image.logged := by
  refine ⟨_, by rw [apply, hst], rfl, ?_⟩
  show ((Loose.apply file.image c).toOption.getD file.image).logged = _
  cases happly : Loose.apply file.image c with
  | error fault => rfl
  | ok image => exact Loose.logged_apply happly

namespace Database

variable {d d' : Database} {s s' : Session} {st : Store} {dir : List String} {last : String}

/-- What is the same after a change, and what it takes. -/
theorem of_update {c : StoreChange} (h : outcome (d.update c) s = (.ok d', s')) :
    d'.name = d.name ∧ d'.path = d.path ∧ d'.canWrite = d.canWrite ∧
      (c.isNothing = false → d.canWrite = true) := by
  unfold update at h
  split at h
  · rename_i hnothing
    cases h
    exact ⟨rfl, rfl, rfl, fun hc => by rw [hc] at hnothing; cases hnothing⟩
  split at h
  · rename_i hwrite
    obtain ⟨file, u, -, h⟩ := outcome_bind_ok h
    split at h
    · obtain ⟨_, _, -, h⟩ := outcome_bind_ok h
      cases h
      exact ⟨rfl, rfl, rfl, fun _ => hwrite⟩
    · cases h
      exact ⟨rfl, rfl, rfl, fun _ => hwrite⟩
  · cases h

theorem isStuck_of_update {c : StoreChange} (h : outcome (d.update c) s = (.ok d', s')) :
    d'.isStuck = d.isStuck := by
  unfold update at h
  split at h
  · cases h
    rfl
  split at h
  · obtain ⟨file, u, -, h⟩ := outcome_bind_ok h
    split at h
    · obtain ⟨_, _, -, h⟩ := outcome_bind_ok h
      cases h
      rfl
    · cases h
      rfl
  · cases h

theorem outcome_emptyLog (h : d.isStuck = false) (s : Session) :
    outcome d.emptyLog s = (.ok ⟨⟩, s) := by
  simp [emptyLog, h]

theorem alters_update {canLog : Bool} (hpath : d.path = some (dir ++ [last])) {c : StoreChange}
    (h : outcome (d.update c) s = (.ok d', s')) : Alters canLog dir last s.files s'.files := by
  unfold update at h
  split at h
  · cases h
    exact .refl
  split at h
  · obtain ⟨file, u, hfile, h⟩ := outcome_bind_ok h
    rw [outcome_answer] at hfile
    obtain ⟨-, rfl⟩ := Prod.mk.inj hfile
    rw [hpath] at h
    obtain ⟨_, u, hput, h⟩ := outcome_bind_ok h
    cases h
    exact (Opening.confined_write file).alters (outcome_onFiles_ok_iff.1 hput).1
  · cases h

/-- **What a change makes of a file that was opened**: its store is changed, and it is fit if there
was anything to change. -/
theorem opened_of_update {canLog : Bool} (hpath : d.path = some (dir ++ [last]))
    (hst : d.file.store? = some st) (hopened : Opened canLog s.files (dir ++ [last]) d.file)
    {c : StoreChange} (h : outcome (d.update c) s = (.ok d', s')) :
    ∃ file, d' = { d with file } ∧ file.store? = some (st.apply c) ∧
      Opened canLog s'.files (dir ++ [last]) file ∧
      (c.isNothing = false → Fit canLog s'.files (dir ++ [last]) file) := by
  unfold update at h
  split at h
  · rename_i hnothing
    cases h
    refine ⟨d.file, rfl, ?_, hopened, fun hc => ?_⟩
    · rw [hst, Store.apply_of_isNothing hnothing]
    · rw [hc] at hnothing
      cases hnothing
  split at h
  · obtain ⟨file, happly, hfile, hlogged⟩ := DatabaseFile.exists_apply hst c
    obtain ⟨_, u, hanswer, h⟩ := outcome_bind_ok h
    rw [happly, outcome_answer] at hanswer
    cases hanswer
    rw [hpath] at h
    obtain ⟨_, u, hput, h⟩ := outcome_bind_ok h
    cases h
    have hwrite := (outcome_onFiles_ok_iff.1 hput).1
    have hfit := Opening.fit_of_write hopened (hlogged.trans hopened.logged) hwrite
    exact ⟨file, by rw [hpath], hfile, hfit.opened, fun _ => hfit⟩
  · cases h

/-- **A change of a fit file is a change of its store**, which leaves it fit and all other files as
they are. -/
theorem update_of_fit {canLog : Bool} (hwrite : d.canWrite = true)
    (hpath : d.path = some (dir ++ [last])) (hst : d.file.store? = some st)
    (hfit : Fit canLog s.files (dir ++ [last]) d.file) (c : StoreChange) :
    ∃ file s', outcome (d.update c) s = (.ok { d with file }, s') ∧
      file.store? = some (st.apply c) ∧ Fit canLog s'.files (dir ++ [last]) file ∧
      s.files.Alike s'.files := by
  cases hnothing : c.isNothing with
  | true =>
    refine ⟨d.file, s, ?_, ?_, hfit, .refl _⟩
    · rw [update, if_pos hnothing]
      rfl
    · rw [hst, Store.apply_of_isNothing hnothing]
  | false =>
    obtain ⟨file, happly, hfile, hlogged⟩ := DatabaseFile.exists_apply hst c
    obtain ⟨hput, hfit'⟩ := Opening.write_of_fit hfit (hlogged.trans hfit.logged)
    refine ⟨file, ⟨s.files.put (dir ++ [last]) (.file (.database file)), s.printed⟩, ?_, hfile,
      hfit', FileTree.alike_put hfit.node _⟩
    simp [update, hnothing, hwrite, happly, hpath, outcome_bind, outcome_onFiles, hput,
      Except.mapError, Except.map]

/-- A database without a file is changed where it is. -/
theorem update_of_noFile (hwrite : d.canWrite = true) (hpath : d.path = none)
    (hst : d.file.store? = some st) (s : Session) (c : StoreChange) :
    ∃ file, outcome (d.update c) s = (.ok { d with file }, s) ∧
      file.store? = some (st.apply c) := by
  cases hnothing : c.isNothing with
  | true =>
    refine ⟨d.file, ?_, ?_⟩
    · rw [update, if_pos hnothing]
      rfl
    · rw [hst, Store.apply_of_isNothing hnothing]
  | false =>
    obtain ⟨file, happly, hfile, -⟩ := DatabaseFile.exists_apply hst c
    refine ⟨file, ?_, hfile⟩
    simp [update, hnothing, hwrite, happly, hpath, Except.mapError, Except.map]

end Database

/-! ## Ready databases -/

/-- A scan of stored routines may open the database `name`: there is a file at its name, which
stands for a file that is there, and it need not be made. -/
structure FileTree.CanReopen (t : FileTree) (name : String) : Prop where
  hasFile : t.hasFile name = true
  request : ∃ request, DatabaseRequest.ofName .existing name = .ok request ∧
    (∀ path, request.path = some path → t.hasFile path = true) ∧
    ∀ path, request.permissionsOf = some path → t.hasNode path = true

/-- The database `name` asks for the file at `loc`, which is fit, and it can be opened again. -/
structure Ready (t : FileTree) (name : String) (request : DatabaseRequest) (loc : List String)
    (file : DatabaseFile) : Prop where
  proper : t.IsProper
  asked : request.AskedBy name
  notFixed : request.isFixed = false
  permissions : request.permissionsOf.any (!t.hasNode ·) = false
  hasFile : t.hasFile name = true
  way : ∃ path, request.path = some path ∧ t.Way path loc ∧ Database.location? t path = some loc
  length : (Database.pathText loc).utf8ByteSize ≤ FileTree.maxPathLength
  fit : Fit request.canLog t loc file

/-- What permissions are asked of is there in trees that are alike. -/
theorem FileTree.Alike.permissions {t t' : FileTree} (h : t.Alike t') (request : DatabaseRequest) :
    request.permissionsOf.any (!t'.hasNode ·) = request.permissionsOf.any (!t.hasNode ·) := by
  have hsame : (fun path => !t'.hasNode path) = fun path => !t.hasNode path := by
    funext path
    rw [h.hasNode]
  rw [hsame]

namespace Ready

variable {t t' : FileTree} {name : String} {request : DatabaseRequest} {loc : List String}
  {file file' : DatabaseFile} {s : Session}

theorem exists_eq_append (h : Ready t name request loc file) :
    ∃ dir last, loc = dir ++ [last] := by
  obtain ⟨path, -, -, hlocation⟩ := h.way
  exact Database.exists_of_location? hlocation

/-- The path of a ready database from the root leads to its file. -/
theorem way_pathText (h : Ready t name request loc file) : t.Way (Database.pathText loc) loc := by
  obtain ⟨path, -, hway, -⟩ := h.way
  obtain ⟨hne, hdirectory⟩ := hway.isDirectory h.proper.root
  exact FileTree.way_pathText hne (hway.isPlain h.proper) hdirectory h.length

/-- The file of a ready database is opened by any name that asks for it. -/
theorem openFile (h : Ready s.files name request loc file) {path : String}
    (hpath : request.path = some path) {mode : AccessMode} (hmode : mode ≠ .readOnly)
    (other : String) :
    outcome (Database.openFile other path { request with mode }) s =
      (.ok ⟨other, some loc, file, true, false⟩, s) := by
  obtain ⟨path', hpath', -, hlocation⟩ := h.way
  obtain rfl : path' = path := Option.some.inj (hpath'.symm.trans hpath)
  exact Database.openFile_of_fit { request with mode } hmode h.notFixed hlocation h.permissions
    h.way_pathText h.fit other

/-- **A ready database opens**, which leaves everything as it is. -/
theorem openIn (h : Ready s.files name request loc file) {given : AccessMode}
    (hgiven : DatabaseRequest.IsGiven given) :
    outcome (Database.openIn given name) s = (.ok ⟨name, some loc, file, true, false⟩, s) := by
  obtain ⟨path, hpath, -⟩ := h.way
  obtain ⟨mode, hmode, hname⟩ := h.asked given hgiven
  rw [Database.openIn_eq hname hpath]
  exact h.openFile hpath hmode name

theorem connect (h : Ready s.files name request loc file) :
    outcome (Database.connect name) s = (.ok ⟨name, some loc, file, true, false⟩, s) :=
  h.openIn (Or.inl rfl)

end Ready

end RoutineParams
