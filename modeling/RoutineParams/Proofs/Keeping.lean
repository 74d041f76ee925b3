import RoutineParams.Proofs.Accesses
import RoutineParams.Proofs.Reopening

/-!
# Rows that are kept

The file of a database lies where its name asks for it. Whether or not the database can be opened
then, every file holds afterwards what it held, but for those beside that file, which are the
program's own. So it is when a change fails; and one that is made is what the file holds then.

    opening a database, however it ends                                        (usesAt_openIn)
    a change of a database that fails leaves the session                   (session_of_update_error)
-/

namespace RoutineParams

open Storage (Fault Image)

/-! ## Definitions -/

/-- Where the file lies that the database `name` asks for when it is opened in a mode. -/
def Database.place? (mode : AccessMode) (name : String) (t : FileTree) : Option (List String) :=
  match DatabaseRequest.ofName mode name with
  | .ok request => request.path.bind (Database.location? t)
  | .error _ => none

/-- The file `last` in the directory `dir` was used, and holds what it held. -/
structure Session.Uses (s : Session) (dir : List String) (last : String) (s' : Session) : Prop where
  printed : s'.printed = s.printed
  directory : s.files.IsDirectory dir
  touches : Touches dir last s.files s'.files
  held : ∀ file, s.files.held? (dir ++ [last]) = some file →
    s'.files.held? (dir ++ [last]) = some file

/-- No file was used but the one at `place`. -/
def Session.UsesAt (s : Session) (place : Option (List String)) (s' : Session) : Prop :=
  s' = s ∨ ∃ dir last, place = some (dir ++ [last]) ∧ s.Uses dir last s'

variable {s s' s₁ s₂ : Session} {place : Option (List String)} {dir loc : List String}
  {last name asked : String} {content : Content} {t t' : FileTree} {mode : AccessMode}
  {request : DatabaseRequest} {d d' : Database} {c : StoreChange}

/-! ## Lemmas: sessions -/

namespace Session

theorem Uses.trans (h : s.Uses dir last s₁) (h' : s₁.Uses dir last s₂) : s.Uses dir last s₂ :=
  ⟨h'.printed.trans h.printed, h.directory, h.touches.trans h'.touches, fun file hfile =>
    h'.held file (h.held file hfile)⟩

theorem UsesAt.trans (h : s.UsesAt place s₁) (h' : s₁.UsesAt place s₂) : s.UsesAt place s₂ := by
  rcases h with rfl | ⟨dir, last, hplace, h⟩
  · exact h'
  rcases h' with rfl | ⟨dir', last', hplace', h'⟩
  · exact Or.inr ⟨dir, last, hplace, h⟩
  -- both times it is the same file
  obtain ⟨rfl, hlast⟩ := List.append_inj' (Option.some.inj (hplace.symm.trans hplace')) rfl
  obtain rfl := List.singleton_inj.1 hlast
  exact Or.inr ⟨dir, last, hplace, h.trans h'⟩

theorem UsesAt.printed (h : s.UsesAt place s') : s'.printed = s.printed := by
  rcases h with rfl | ⟨dir, last, -, h⟩
  · rfl
  · exact h.printed

theorem UsesAt.touches (h : s.UsesAt place s') (hplace : place = some (dir ++ [last])) :
    Touches dir last s.files s'.files := by
  rcases h with rfl | ⟨dir', last', hplace', h⟩
  · exact .refl
  obtain ⟨rfl, hlast⟩ := List.append_inj' (Option.some.inj (hplace.symm.trans hplace')) rfl
  obtain rfl := List.singleton_inj.1 hlast
  exact h.touches

theorem UsesAt.isProper (h : s.UsesAt place s') (hproper : s.files.IsProper) :
    s'.files.IsProper ∧ s'.files.home = s.files.home := by
  rcases h with rfl | ⟨dir, last, -, h⟩
  · exact ⟨hproper, rfl⟩
  · exact ⟨⟨h.touches.isDirectory hproper.root, h.touches.home ▸ hproper.home⟩, h.touches.home⟩

end Session

/-! ## Lemmas: opening -/

namespace Database

/-- What was found or made at a place lies there with what was held there. -/
theorem lies_of_locate (hproper : t.IsProper) (hlocation : location? t asked = some loc)
    (h : locate mode loc t = .ok (content, t')) :
    ∃ dir last, loc = dir ++ [last] ∧ t.IsDirectory dir ∧ ¬t.IsDirectory loc ∧
      Touches dir last t t' ∧ Opening.Lies loc content (t.held? loc) t' := by
  obtain ⟨hway, hnot⟩ := way_of_locate hproper hlocation h
  obtain ⟨dir, last, rfl⟩ := exists_of_location? hlocation
  obtain ⟨hne, hdir⟩ := hway.isDirectory hproper.root
  rw [List.dropLast_concat] at hdir
  refine ⟨dir, last, rfl, hdir, hnot, ?_⟩
  rcases of_locate h with ⟨p, hfind, rfl⟩ | ⟨hnone, rfl, -, rfl, -⟩
  · obtain ⟨hway', hnode⟩ := FileTree.way_of_find hproper.root hfind
    obtain rfl := hway'.eq_of_pathText hne (FileTree.leadsDown_of_location? hproper hlocation)
    exact ⟨.refl, by rw [FileTree.content?, hnode], rfl⟩
  · have hnode : t.node? (dir ++ [last]) = none := by
      cases hnode : t.node? (dir ++ [last]) with
      | none => rfl
      | some n => cases hnone.symm.trans (FileTree.find_of_way hway hnode)
    refine ⟨.put _ .refl (Or.inl rfl) hnot, FileTree.content?_put_self _ _ _, ?_⟩
    have hcontent : t.content? (dir ++ [last]) = none := by rw [FileTree.content?, hnode]
    rw [FileTree.held?, FileTree.held?, FileTree.content?_put_self, hcontent,
      Option.getD_some, Option.getD_none, FileTree.settle_of_isBlank rfl,
      FileTree.settle_of_isBlank rfl]

/-- How opening the file of a database can end. -/
theorem of_openFile {path : String} {r : Except Error Database}
    (h : outcome (openFile name path request) s = (r, s')) :
    s' = s ∨ ∃ loc content t r', location? s.files path = some loc ∧
      locate request.mode loc s.files = .ok (content, t) ∧
      outcome (Opening.openContent ⟨request.mode ≠ .readOnly, request.isFixed, request.canLog⟩
        loc content) t = (r', s'.files) ∧ s'.printed = s.printed ∧
      ∀ d, r = .ok d →
        ∃ c, r' = .ok c ∧ d = ⟨name, some loc, c.file, c.canWrite, c.isStuck⟩ := by
  rw [openFile, outcome_bind, outcome_get] at h
  simp only at h
  cases hlocation : location? s.files path with
  | none =>
    rw [hlocation] at h
    cases h
    exact Or.inl rfl
  | some loc =>
    rw [hlocation] at h
    simp only at h
    split at h
    · cases h
      exact Or.inl rfl
    cases hlocate : locate request.mode loc s.files with
    | error fault =>
      rw [hlocate] at h
      cases h
      exact Or.inl rfl
    | ok found =>
      obtain ⟨content, t⟩ := found
      rw [hlocate] at h
      simp only [outcome_bind, Action.modifyFiles, outcome_modify, outcome_onFiles] at h
      generalize hopen : outcome (Opening.openContent _ loc content) t = x at h
      obtain ⟨r', t'⟩ := x
      cases r' with
      | error fault =>
        cases h
        exact Or.inr ⟨loc, content, t, _, rfl, hlocate, hopen, rfl, fun d hd => by cases hd⟩
      | ok c =>
        cases h
        exact Or.inr ⟨loc, content, t, _, rfl, hlocate, hopen, rfl, fun d hd =>
          ⟨c, rfl, (Except.ok.inj hd).symm⟩⟩

/-- Opening the file of a database uses it, however that ends. -/
theorem usesAt_openFile (hproper : s.files.IsProper) {path : String} {r : Except Error Database}
    (h : outcome (openFile name path request) s = (r, s')) :
    s.UsesAt (location? s.files path) s' := by
  rcases of_openFile h with rfl | ⟨loc, content, t, r', hlocation, hlocate, hopen, hprinted, -⟩
  · exact Or.inl rfl
  obtain ⟨dir, last, rfl, hdir, hnot, htouches, hlies⟩ :=
    lies_of_locate hproper hlocation hlocate
  refine Or.inr ⟨dir, last, hlocation, hprinted, hdir,
    htouches.trans (Opening.touches_openContent (htouches.not_isDirectory hnot) hopen), ?_⟩
  intro file hfile
  cases hfixed : request.isFixed with
  | true =>
    rw [(Opening.isIdle_openContent hfixed).files hopen, hlies.2, hfile]
  | false =>
    have hensures := (Opening.ensures_openContent hfixed).of_outcome hlies hopen
    cases r' with
    | ok c => exact hensures.2.trans hfile
    | error fault => exact hensures file hfile

/-- **Opening a database** uses its file, however that ends. -/
theorem usesAt_openIn (hproper : s.files.IsProper) {r : Except Error Database}
    (h : outcome (openIn mode name) s = (r, s')) : s.UsesAt (place? mode name s.files) s' := by
  unfold openIn at h
  unfold place?
  split at h
  · cases h
    exact Or.inl rfl
  · rename_i request hname
    rw [hname]
    simp only
    cases hpath : request.path with
    | some path =>
      rw [hpath] at h
      exact usesAt_openFile hproper h
    | none =>
      rw [hpath] at h
      simp only at h
      split at h <;> (cases h; exact Or.inl rfl)

theorem usesAt_connectExisting (hproper : s.files.IsProper) {r : Except Error Database}
    (h : outcome (connectExisting name) s = (r, s')) :
    s.UsesAt (place? .existing name s.files) s' := by
  cases hfile : s.files.hasFile name with
  | true =>
    rw [connectExisting_of_hasFile hfile] at h
    exact usesAt_openIn hproper h
  | false =>
    rw [connectExisting_of_not_hasFile hfile] at h
    cases h
    exact Or.inl rfl

/-! ## Lemmas: changes -/

/-- What a change does that is made. -/
theorem of_update_ok (h : outcome (d.update c) s = (.ok d', s')) (hc : c.isNothing = false) :
    ∃ file, d.file.apply c = .ok file ∧ d' = { d with file } ∧ s'.printed = s.printed ∧
      ∀ loc, d.path = some loc → outcome (Opening.write loc file) s.files = (.ok ⟨⟩, s'.files) := by
  rw [update, if_neg (by simp [hc])] at h
  split at h
  · obtain ⟨file, u, hanswer, h⟩ := outcome_bind_ok h
    rw [outcome_answer] at hanswer
    cases happly : d.file.apply c with
    | error fault =>
      rw [happly] at hanswer
      cases hanswer
    | ok file =>
      rw [happly] at hanswer
      cases hanswer
      cases hpath : d.path with
      | none =>
        rw [hpath] at h
        cases h
        exact ⟨file, rfl, rfl, rfl, fun loc h => by cases h⟩
      | some loc =>
        rw [hpath] at h
        obtain ⟨_, u, hput, h⟩ := outcome_bind_ok h
        cases h
        obtain ⟨hwrite, hprinted⟩ := outcome_onFiles_ok_iff.1 hput
        refine ⟨file, rfl, rfl, hprinted, fun loc' h => ?_⟩
        cases h
        exact hwrite
  · cases h

/-- A change that can be made and written is made. -/
theorem update_of_write {file : DatabaseFile} (hwrite : d.canWrite = true) (hpath : d.path = some loc)
    (hsome : c.isNothing = false) (happly : d.file.apply c = .ok file)
    (hput : outcome (Opening.write loc file) s.files = (.ok ⟨⟩, t)) :
    outcome (d.update c) s = (.ok { d with file }, ⟨t, s.printed⟩) := by
  simp [update, hsome, hwrite, happly, hpath, outcome_bind, outcome_onFiles, hput,
    Except.mapError, Except.map]

end Database

end RoutineParams
