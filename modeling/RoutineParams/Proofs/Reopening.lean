import RoutineParams.Proofs.Sessions

/-!
# Opening databases again

Where the file of a database lies that was opened to be changed is told by its name, and stays so
while its file is changed. A database that was changed holds its store in a fit file. If it can be
opened again once, then it can be any time: that gives the same store and changes nothing else.

    outcome (connect name) s = (.ok d, s') → d.canWrite → IsPlaced s'.files name … ∧
      Opened request.canLog s'.files loc d.file                                (placed_of_connect)
    d.HasStore s canLog loc st → d.update c gives a database with st.apply c    (HasStore.update)
    d.HasStore s canLog loc st → OpensAgain s.files mustExist d.name canLog loc →
      opening d.name again gives a database with st                             (HasStore.reopen)
-/

namespace RoutineParams

namespace Database

/-- Opens the database `name` again, whose file must be there or may be made. -/
def reopen (mustExist : Bool) (name : String) : Action Database :=
  if mustExist then connectExisting name else connect name

/-- The database `name` asks for the file at `loc`, to change it: its path leads there, and so does
the one from the root. -/
structure IsPlaced (t : FileTree) (name : String) (request : DatabaseRequest) (asked : String)
    (loc : List String) : Prop where
  requested : DatabaseRequest.ofName .create name = .ok request
  path : request.path = some asked
  mode : request.mode ≠ .readOnly
  notFixed : request.isFixed = false
  proper : t.IsProper
  located : ∃ f : FileTree, t.home = f.home ∧ location? f asked = some loc
  way : t.Way (pathText loc) loc

/-- The database `name`, whose file is at `loc`, can be opened again. -/
structure OpensAgain (t : FileTree) (mustExist : Bool) (name : String) (canLog : Bool)
    (loc : List String) : Prop where
  request : ∃ request path,
    DatabaseRequest.ofName (if mustExist then .existing else .create) name = .ok request ∧
      request.path = some path ∧ request.mode ≠ .readOnly ∧ request.isFixed = false ∧
      request.canLog = canLog ∧ location? t path = some loc ∧
      request.permissionsOf.any (!t.hasNode ·) = false
  hasFile : mustExist = true → t.hasFile name = true
  way : t.Way (pathText loc) loc

/-- The database `d` holds the store `st` in a fit file at `loc`, and can be changed. -/
structure HasStore (d : Database) (s : Session) (canLog : Bool) (loc : List String) (st : Store) :
    Prop where
  path : d.path = some loc
  place : ∃ dir last, loc = dir ++ [last]
  canWrite : d.canWrite = true
  store : d.file.store? = some st
  fit : Fit canLog s.files loc d.file

/-- Opening the database `name` in a mode gave `file`, which lies at `dir ++ [last]`, where the name
asks for it, and can be changed. -/
structure Usable (mode : AccessMode) (name : String) (s s' : Session) (request : DatabaseRequest)
    (asked : String) (dir : List String) (last : String) (file : DatabaseFile) : Prop where
  requested : DatabaseRequest.ofName mode name = .ok request
  path : request.path = some asked
  mode : request.mode ≠ .readOnly
  notFixed : request.isFixed = false
  proper : s.files.IsProper
  located : location? s.files asked = some (dir ++ [last])
  way : s.files.Way (pathText (dir ++ [last])) (dir ++ [last])
  notDirectory : ¬s.files.IsDirectory (dir ++ [last])
  alters : Alters request.canLog dir last s.files s'.files
  opened : Opened request.canLog s'.files (dir ++ [last]) file

variable {d d' : Database} {s s' : Session} {canLog mustExist : Bool} {dir : List String}
  {last name asked : String} {loc : List String} {st : Store} {request : DatabaseRequest}
  {t t' : FileTree} {mode : AccessMode}

/-! ## Lemmas: connecting -/

theorem connectExisting_of_hasFile (h : s.files.hasFile name = true) :
    outcome (connectExisting name) s = outcome (openIn .existing name) s := by
  rw [connectExisting, outcome_bind, outcome_get]
  simp [h]

theorem connectExisting_of_not_hasFile (h : s.files.hasFile name = false) :
    outcome (connectExisting name) s = (.error (.sourceNotFound name), s) := by
  rw [connectExisting, outcome_bind, outcome_get]
  simp [h]

theorem isStuck_of_connectExisting (h : outcome (connectExisting name) s = (.ok d, s'))
    (hwrite : d.canWrite = true) : d.isStuck = false := by
  cases hfile : s.files.hasFile name with
  | true =>
    rw [connectExisting_of_hasFile hfile] at h
    exact isStuck_of_openIn h hwrite
  | false =>
    rw [connectExisting_of_not_hasFile hfile] at h
    cases h

theorem outcome_reopen (mustExist : Bool) (name : String) {s : Session}
    (h : mustExist = true → s.files.hasFile name = true) :
    outcome (reopen mustExist name) s =
      outcome (openIn (if mustExist then .existing else .create) name) s := by
  cases mustExist with
  | false => rfl
  | true => exact connectExisting_of_hasFile (h rfl)

/-- What was found or made at a place lies where its path from the root leads, in a directory. -/
theorem way_of_locate {content : Content} (hproper : t.IsProper)
    (hlocation : location? t asked = some loc) (h : locate mode loc t = .ok (content, t')) :
    t.Way (pathText loc) loc ∧ ¬t.IsDirectory loc := by
  have hdown := FileTree.leadsDown_of_location? hproper hlocation
  have hne := (FileTree.of_location? hlocation).1
  rcases of_locate h with ⟨p, hfind, -⟩ | ⟨hnone, -, -, -, x, hwrite⟩
  · obtain ⟨hway, hnode⟩ := FileTree.way_of_find hproper.root hfind
    obtain rfl := hway.eq_of_pathText hne hdown
    exact ⟨hway, FileTree.not_isDirectory_of_file hnode⟩
  · have hway := FileTree.way_of_fileToWrite hproper hlocation hwrite
    refine ⟨hway, ?_⟩
    rintro ⟨n, hnode, -⟩
    cases hnone.symm.trans (FileTree.find_of_way hway hnode)

/-- A database whose name asks for a file has one. -/
theorem exists_path_of_connect (hname : DatabaseRequest.ofName .create name = .ok request)
    (hasked : request.path = some asked) (h : outcome (connect name) s = (.ok d, s')) :
    ∃ loc, d.path = some loc := by
  rw [connect, openIn_eq hname hasked] at h
  obtain ⟨loc, -, -, -, -, -, -, -, -, rfl⟩ := outcome_openFile_ok_iff.1 h
  exact ⟨loc, rfl⟩

/-- The name of a database that has a file asks for one. -/
theorem exists_asked_of_openIn (hname : DatabaseRequest.ofName mode name = .ok request)
    (hpath : d.path = some loc) (h : outcome (openIn mode name) s = (.ok d, s')) :
    ∃ asked, request.path = some asked := by
  cases hasked : request.path with
  | some asked => exact ⟨asked, rfl⟩
  | none =>
    simp only [openIn, hname, hasked] at h
    split at h
    · cases h
    · cases h
      cases hpath

/-- **A database that was opened to be changed** has its file where its name asks for it. -/
theorem usable_of_openIn (hproper : s.files.IsProper)
    (h : outcome (openIn mode name) s = (.ok d, s')) (hpath : d.path = some loc)
    (hwrite : d.canWrite = true) :
    d.name = name ∧ ∃ request asked dir last, loc = dir ++ [last] ∧
      Usable mode name s s' request asked dir last d.file := by
  obtain ⟨request, hname, -⟩ := of_openIn h
  obtain ⟨asked, hasked⟩ := exists_asked_of_openIn hname hpath h
  rw [openIn_eq hname hasked] at h
  obtain ⟨loc', content, t, c, hlocation, -, hlocate, hopen, -, rfl⟩ :=
    outcome_openFile_ok_iff.1 h
  obtain rfl : loc' = loc := Option.some.inj hpath
  obtain ⟨hway, hnot⟩ := way_of_locate hproper hlocation hlocate
  obtain ⟨dir, last, rfl⟩ := exists_of_location? hlocation
  obtain ⟨hchanging, -⟩ := Opening.changing_of_openContent hopen hwrite
  obtain ⟨hmode, hfixed⟩ : decide (request.mode ≠ .readOnly) = true ∧ request.isFixed = false :=
    ⟨congrArg Access.canWrite hchanging, congrArg Access.isFixed hchanging⟩
  rw [hchanging] at hopen
  have hmade : Alters request.canLog dir last s.files t := by
    rcases of_locate hlocate with ⟨-, -, rfl⟩ | ⟨-, rfl, -⟩
    · exact .refl
    · exact .write _ .refl
  exact ⟨rfl, request, asked, dir, last, rfl, hname, hasked, of_decide_eq_true hmode, hfixed,
    hproper, hlocation, hway, hnot,
    hmade.trans ((Opening.confined_openContent _ _).alters hopen),
    Opening.opened_of_openContent (hmade.not_isDirectory hnot) hopen hwrite⟩

theorem placed_of_connect (hproper : s.files.IsProper)
    (h : outcome (connect name) s = (.ok d, s')) (hpath : d.path = some loc)
    (hwrite : d.canWrite = true) :
    d.name = name ∧ ∃ request asked, IsPlaced s'.files name request asked loc ∧
      Opened request.canLog s'.files loc d.file := by
  obtain ⟨hname, request, asked, dir, last, rfl, husable⟩ :=
    usable_of_openIn hproper h hpath hwrite
  exact ⟨hname, request, asked, ⟨husable.requested, husable.path, husable.mode, husable.notFixed,
    husable.alters.isProper hproper, ⟨s.files, husable.alters.home, husable.located⟩,
    husable.way.mono (fun _ => husable.alters.isDirectory husable.notDirectory)
      husable.alters.home⟩, husable.opened⟩

/-- A database that could be used can be opened again where it was opened again once. -/
theorem Usable.opensAgain {file : DatabaseFile} {mustExist : Bool}
    (h : Usable (if mustExist then .existing else .create) name s s' request asked dir last file)
    {s₁ s₂ : Session} (hhome : s₁.files.home = s.files.home)
    (hmono : ∀ p, s.files.IsDirectory p → s₁.files.IsDirectory p)
    (hopen : outcome (reopen mustExist name) s₁ = (.ok d', s₂)) :
    OpensAgain s₁.files mustExist name request.canLog (dir ++ [last]) := by
  have hasFile : mustExist = true → s₁.files.hasFile name = true := by
    rintro rfl
    cases hhas : s₁.files.hasFile name with
    | true => rfl
    | false => cases (connectExisting_of_not_hasFile hhas).symm.trans hopen
  rw [outcome_reopen mustExist name hasFile, openIn_eq h.requested h.path] at hopen
  obtain ⟨loc, -, -, -, hlocation, hpermissions, -⟩ := outcome_openFile_ok_iff.1 hopen
  obtain rfl := FileTree.location?_unique hhome hlocation h.located
  exact ⟨⟨request, asked, h.requested, h.path, h.mode, h.notFixed, rfl, hlocation, hpermissions⟩,
    hasFile, h.way.mono hmono hhome⟩

/-! ## Lemmas: places -/

namespace IsPlaced

theorem exists_eq_append (h : IsPlaced t name request asked loc) :
    ∃ dir last, loc = dir ++ [last] := by
  obtain ⟨f, -, hlocation⟩ := h.located
  exact exists_of_location? hlocation

theorem of_isDirectory (h : IsPlaced t name request asked loc) (hproper : t'.IsProper)
    (hhome : t'.home = t.home) (hmono : ∀ p, t.IsDirectory p → t'.IsDirectory p) :
    IsPlaced t' name request asked loc := by
  obtain ⟨f, hf, hlocation⟩ := h.located
  exact ⟨h.requested, h.path, h.mode, h.notFixed, hproper, ⟨f, hhome.trans hf, hlocation⟩,
    h.way.mono hmono hhome⟩

/-- A database stays in its place while its file is written and others come and go beside it. -/
theorem of_alters (h : IsPlaced t name request asked (dir ++ [last]))
    (hnot : ¬t.IsDirectory (dir ++ [last])) (halters : Alters canLog dir last t t') :
    IsPlaced t' name request asked (dir ++ [last]) :=
  h.of_isDirectory (halters.isProper h.proper) halters.home fun _ => halters.isDirectory hnot

theorem of_alike (h : IsPlaced t name request asked loc) (halike : t.Alike t') :
    IsPlaced t' name request asked loc :=
  h.of_isDirectory (halike.isProper h.proper) halike.home fun _ => halike.isDirectory

/-- **A database that was opened again once** can be opened again. -/
theorem opensAgain (h : IsPlaced s.files name request asked loc)
    (hopen : outcome (reopen mustExist name) s = (.ok d', s')) :
    OpensAgain s.files mustExist name request.canLog loc := by
  have hasFile : mustExist = true → s.files.hasFile name = true := by
    rintro rfl
    cases hhas : s.files.hasFile name with
    | true => rfl
    | false => cases (connectExisting_of_not_hasFile hhas).symm.trans hopen
  rw [outcome_reopen mustExist name hasFile] at hopen
  have hgiven : DatabaseRequest.IsGiven (if mustExist then .existing else .create) := by
    cases mustExist with
    | false => exact Or.inl rfl
    | true => exact Or.inr rfl
  obtain ⟨request', hname', -⟩ := of_openIn hopen
  obtain ⟨mode, hmode, rfl⟩ :=
    DatabaseRequest.ofName_of_isGiven hgiven h.requested h.mode hname'
  rw [openIn_eq hname' h.path] at hopen
  obtain ⟨loc', -, -, -, hlocation, hpermissions, -⟩ := outcome_openFile_ok_iff.1 hopen
  obtain ⟨f, hhome, hlocation'⟩ := h.located
  obtain rfl := FileTree.location?_unique hhome hlocation hlocation'
  exact ⟨⟨_, asked, hname', h.path, hmode, h.notFixed, rfl, hlocation, hpermissions⟩, hasFile,
    h.way⟩

/-- What can be opened where its file must be there can be where it may be made. -/
theorem opensAgain_of_mustExist (h : IsPlaced t name request asked loc)
    (hagain : OpensAgain t true name request.canLog loc) (mustExist : Bool) :
    OpensAgain t mustExist name request.canLog loc := by
  cases mustExist with
  | true => exact hagain
  | false =>
    obtain ⟨⟨request', path, hname, hpath, -, -, -, hlocation, hpermissions⟩, -, hway⟩ := hagain
    obtain ⟨mode, -, rfl⟩ :=
      DatabaseRequest.ofName_of_isGiven (Or.inr rfl) h.requested h.mode hname
    exact ⟨⟨request, path, h.requested, hpath, h.mode, h.notFixed, rfl, hlocation, hpermissions⟩,
      fun hmust => (by cases hmust), hway⟩

/-- A database that is named by a path to its file can be opened again. -/
theorem opensAgain_of_way (h : IsPlaced t name request asked loc)
    (huri : ¬DatabaseRequest.IsUri name) (hway : t.Way name loc)
    {content : Content} (hnode : t.node? loc = some (.file content)) (mustExist : Bool) :
    OpensAgain t mustExist name request.canLog loc := by
  obtain ⟨rfl, hname⟩ := DatabaseRequest.ofName_congr huri h.requested
  have hpath : ∀ mode, (DatabaseRequest.ofPath mode name).path = some asked := fun _ => h.path
  obtain rfl : name = asked := by
    have hasked := h.path
    unfold DatabaseRequest.ofPath at hasked
    split at hasked
    · cases hasked
    · exact Option.some.inj hasked
  obtain ⟨f, hhome, hlocation'⟩ := h.located
  obtain ⟨-, hlocation, -⟩ := hway.location?_eq h.proper hhome hnode hlocation'
  refine ⟨⟨_, _, hname _, hpath _, ?_, rfl, rfl, hlocation, rfl⟩, fun _ => ?_, h.way⟩
  · show (if mustExist then AccessMode.existing else .create) ≠ .readOnly
    cases mustExist <;> decide
  · rw [FileTree.hasFile, FileTree.find_of_way hway hnode]

/-- A fit database in its place that a scan of stored routines may open is ready. -/
theorem ready (h : IsPlaced t name request asked loc) (hreopens : t.CanReopen name)
    {file : DatabaseFile} (hfit : Fit request.canLog t loc file) :
    Ready t name request loc file := by
  obtain ⟨hasFile, request', hname', hpathFile, hpermissions⟩ := hreopens
  obtain ⟨hasked, hsamePath, hsamePermissions⟩ :=
    DatabaseRequest.askedBy h.requested h.mode hname'
  have hmodeof : request.permissionsOf.any (!t.hasNode ·) = false := by
    rw [← hsamePermissions]
    cases hpermissionsOf : request'.permissionsOf with
    | none => rfl
    | some path => simpa using hpermissions path hpermissionsOf
  -- the file that is there tells where the path leads
  obtain ⟨p, content, hfind⟩ : ∃ p content, t.find asked = .ok (p, .file content) := by
    have hhas := hpathFile asked (hsamePath.trans h.path)
    rw [FileTree.hasFile] at hhas
    split at hhas
    · exact ⟨_, _, ‹_›⟩
    · cases hhas
  obtain ⟨hway, hnode⟩ := FileTree.way_of_find h.proper.root hfind
  obtain ⟨f, hhome, hlocation⟩ := h.located
  obtain ⟨rfl, hlocation', hlength⟩ := hway.location?_eq h.proper hhome hnode hlocation
  exact ⟨h.proper, hasked, h.notFixed, hmodeof, hasFile, ⟨asked, h.path, hway, hlocation'⟩,
    hlength, hfit⟩

end IsPlaced

/-! ## Lemmas: opening again -/

theorem OpensAgain.of_alike (h : OpensAgain t mustExist name canLog loc) (halike : t.Alike t') :
    OpensAgain t' mustExist name canLog loc := by
  obtain ⟨⟨request, path, hname, hpath, hmode, hfixed, hlog, hlocation, hpermissions⟩, hasFile,
    hway⟩ := h
  refine ⟨⟨request, path, hname, hpath, hmode, hfixed, hlog, ?_, ?_⟩, fun hmust => ?_, ?_⟩
  · rw [halike.location?, hlocation]
  · rw [halike.permissions, hpermissions]
  · rw [halike.hasFile, hasFile hmust]
  · exact hway.mono (fun _ => halike.isDirectory) halike.home

/-- A ready database can be opened again. -/
theorem OpensAgain.of_ready {file : DatabaseFile} (h : Ready t name request loc file)
    (mustExist : Bool) : OpensAgain t mustExist name request.canLog loc := by
  obtain ⟨path, hpath, -, hlocation⟩ := h.way
  have hgiven : DatabaseRequest.IsGiven (if mustExist then .existing else .create) := by
    cases mustExist with
    | false => exact Or.inl rfl
    | true => exact Or.inr rfl
  obtain ⟨mode, hmode, hname⟩ := h.asked _ hgiven
  exact ⟨⟨_, path, hname, hpath, hmode, h.notFixed, rfl, hlocation, h.permissions⟩,
    fun _ => h.hasFile, h.way_pathText⟩

/-- **A database that is opened again** holds the same store, and nothing else changes. -/
theorem HasStore.reopen (h : d.HasStore s canLog loc st)
    (hagain : OpensAgain s.files mustExist d.name canLog loc) :
    ∃ d', outcome (reopen mustExist d.name) s = (.ok d', s) ∧ d'.name = d.name ∧
      d'.HasStore s canLog loc st := by
  obtain ⟨⟨request, path, hname, hpath, hmode, hfixed, rfl, hlocation, hpermissions⟩, hasFile,
    hway⟩ := hagain
  refine ⟨⟨d.name, some loc, d.file, true, false⟩, ?_, rfl, rfl, h.place, rfl, h.store, h.fit⟩
  rw [outcome_reopen mustExist d.name hasFile, openIn_eq hname hpath]
  exact openFile_of_fit request hmode hfixed hlocation hpermissions hway h.fit d.name

/-- What was opened of a database in its place holds the same store. -/
theorem HasStore.of_reopen (h : d.HasStore s request.canLog loc st)
    (hplaced : IsPlaced s.files d.name request asked loc)
    (hreopen : outcome (Database.reopen mustExist d.name) s = (.ok d', s')) :
    s' = s ∧ d'.HasStore s request.canLog loc st := by
  obtain ⟨d'', hreopen', -, hd''⟩ := h.reopen (hplaced.opensAgain hreopen)
  obtain ⟨hd, rfl⟩ := Prod.mk.inj (hreopen.symm.trans hreopen')
  obtain rfl : d' = d'' := Except.ok.inj hd
  exact ⟨rfl, hd''⟩

/-! ## Lemmas: changes and answers -/

/-- **A change of a database** is a change of its store. -/
theorem HasStore.update (h : d.HasStore s canLog loc st) (c : StoreChange) :
    ∃ d' s', outcome (d.update c) s = (.ok d', s') ∧ d'.name = d.name ∧
      d'.HasStore s' canLog loc (st.apply c) ∧ s.files.Alike s'.files := by
  obtain ⟨hpath, ⟨dir, last, rfl⟩, hwrite, hst, hfit⟩ := h
  obtain ⟨file, s', hupdate, hst', hfit', halike⟩ := update_of_fit hwrite hpath hst hfit c
  exact ⟨_, s', hupdate, rfl, ⟨hpath, ⟨dir, last, rfl⟩, hwrite, hst', hfit'⟩, halike⟩

theorem outcome_routinesOf (hst : d.file.store? = some st) (name : String) (s : Session) :
    outcome (d.routinesOf name) s = (.ok (st.routinesOf name), s) := by
  rw [routinesOf, outcome_answer, DatabaseFile.routinesOf, hst]
  rfl

theorem outcome_parametersOf (hst : d.file.store? = some st) (name : String) (s : Session) :
    outcome (d.parametersOf name) s = (.ok (st.parametersOf name), s) := by
  rw [parametersOf, outcome_answer, DatabaseFile.parametersOf, hst]
  rfl

theorem outcome_stats (hst : d.file.store? = some st) (s : Session) :
    outcome d.stats s = (.ok st.stats, s) := by
  rw [stats, outcome_answer, DatabaseFile.stats, hst]
  rfl

end Database

end RoutineParams
