import RoutineParams.Proofs.Keeping
import RoutineParams.Proofs.Scans

/-!
# Databases that are read again

What a database was found to hold when it was opened is what its file held before and holds after
it. So a database that is opened twice, with nothing done between, holds the same both times, also
where it may not be changed. A scan of stored routines reads its database twice, and then finds the
parameters of what it has read.

    the file of a database that can be changed holds what was opened          (held?_of_openIn)
    opened twice, a database holds the same                                      (openIn_again)
    what a scan of stored routines that succeeds has done                  (scanCatalog_ok_iff)
-/

namespace RoutineParams

/-! ## Definitions -/

/-- The file at `loc` holds the store `st`, once it is opened. -/
def FileTree.HoldsAt (t : FileTree) (loc : List String) (st : Store) : Prop :=
  ∃ file, t.held? loc = some file ∧ file.store? = some st

variable {s s' s₁ s₂ u : Session} {place : Option (List String)} {loc : List String}
  {name db asked : String} {content : Content} {t t' : FileTree} {mode : AccessMode}
  {request : DatabaseRequest} {d d' : Database} {st : Store} {m : Machine} {c : Config}
  {found : Option Report}

/-! ## Lemmas: what a file holds -/

/-- The file that is used holds the store that it held. -/
theorem Session.UsesAt.holdsAt (h : s.UsesAt place s') (hplace : place = some loc)
    (hst : s.files.HoldsAt loc st) : s'.files.HoldsAt loc st := by
  rcases h with rfl | ⟨dir, last, hplace', h⟩
  · exact hst
  obtain rfl := Option.some.inj (hplace'.symm.trans hplace)
  obtain ⟨file, hheld, hfile⟩ := hst
  exact ⟨file, h.held file hheld, hfile⟩

namespace Database

/-- A file that is fit holds the store of its database. -/
theorem HasStore.holdsAt {canLog : Bool} (h : d.HasStore s canLog loc st) :
    s.files.HoldsAt loc st :=
  ⟨d.file.marked false, h.fit.held?, h.store⟩

/-! ## Lemmas: opening -/

/-- A database that was opened has its file where its name asks for it. -/
theorem place?_of_openIn {mode : AccessMode}
    (h : outcome (openIn mode name) s = (.ok d, s')) : place? mode name s.files = d.path := by
  obtain ⟨request, hname, -⟩ := of_openIn h
  rw [place?, hname]
  simp only
  cases hasked : request.path with
  | some asked =>
    rw [openIn_eq hname hasked] at h
    obtain ⟨loc, -, -, -, hlocation, -, -, -, -, rfl⟩ := outcome_openFile_ok_iff.1 h
    exact hlocation
  | none =>
    simp only [openIn, hname, hasked] at h
    split at h <;> cases h
    rfl

/-- A database without a file can be opened any time. -/
theorem openIn_of_path_none (h : outcome (openIn mode name) s = (.ok d, s')) (hpath : d.path = none)
    (s₁ : Session) : outcome (openIn mode name) s₁ = (.ok d, s₁) := by
  obtain ⟨request, hname, -⟩ := of_openIn h
  cases hasked : request.path with
  | some asked =>
    rw [openIn_eq hname hasked] at h
    obtain ⟨_, _, _, _, _, _, _, _, _, rfl⟩ := outcome_openFile_ok_iff.1 h
    cases hpath
  | none =>
    simp only [openIn, hname, hasked] at h ⊢
    split at h
    · cases h
    · rename_i hmode
      cases h
      rw [if_neg hmode]
      rfl

/-- What was found or made at a place is found there again. -/
theorem locate_again (hproper : t.IsProper) (hlocation : location? t asked = some loc)
    (h : locate mode loc t = .ok (content, t')) (mode' : AccessMode) :
    locate mode' loc t' = .ok (content, t') := by
  obtain ⟨hway, -⟩ := way_of_locate hproper hlocation h
  obtain ⟨dir, last, rfl, -, -, htouches, hcontent, -⟩ := lies_of_locate hproper hlocation h
  have hnode : t'.node? (dir ++ [last]) = some (.file content) := by
    unfold FileTree.content? at hcontent
    split at hcontent
    · rwa [← Option.some.inj hcontent]
    · cases hcontent
  have hfind := FileTree.find_of_way
    (hway.mono (fun _ => htouches.isDirectory) htouches.home) hnode
  cases mode' <;> simp only [locate, hfind]

/-- The file of a database holds what was opened of it, unless nobody changes it. -/
theorem held?_of_openFile (hproper : s.files.IsProper) {path : String}
    (hfixed : request.isFixed = false) (h : outcome (openFile name path request) s = (.ok d, s'))
    (hpath : d.path = some loc) :
    s.files.held? loc = some (d.file.marked false) ∧
      s'.files.held? loc = some (d.file.marked false) := by
  obtain ⟨loc', content, t, c, hlocation, -, hlocate, hopen, -, rfl⟩ :=
    outcome_openFile_ok_iff.1 h
  obtain rfl := Option.some.inj hpath
  obtain ⟨dir, last, rfl, -, -, -, hlies⟩ := lies_of_locate hproper hlocation hlocate
  obtain ⟨hheld, hheld'⟩ := (Opening.ensures_openContent hfixed).of_outcome hlies hopen
  exact ⟨hheld, hheld'.trans hheld⟩

/-- **The file of a database that can be changed** holds what was opened of it. -/
theorem held?_of_openIn (hproper : s.files.IsProper)
    (h : outcome (openIn mode name) s = (.ok d, s')) (hpath : d.path = some loc)
    (hwrite : d.canWrite = true) : s.files.held? loc = some (d.file.marked false) := by
  obtain ⟨-, request, asked, dir, last, rfl, husable⟩ := usable_of_openIn hproper h hpath hwrite
  rw [openIn_eq husable.requested husable.path] at h
  exact (held?_of_openFile hproper husable.notFixed h hpath).1

theorem store?_of_openIn (hproper : s.files.IsProper)
    (h : outcome (openIn mode name) s = (.ok d, s')) (hpath : d.path = some loc)
    (hwrite : d.canWrite = true) (hst : s.files.HoldsAt loc st) : d.file.store? = some st := by
  obtain ⟨file, hheld, hfile⟩ := hst
  obtain rfl := Option.some.inj (hheld.symm.trans (held?_of_openIn hproper h hpath hwrite))
  exact hfile

/-- **A file that is opened twice** holds the same both times. -/
theorem openFile_again (hproper : s.files.IsProper) {path : String}
    (h : outcome (openFile name path request) s = (.ok d, s')) (hsame : s₁.files = s'.files)
    (h' : outcome (openFile name path request) s₁ = (.ok d', s₂)) :
    d'.path = d.path ∧ d'.file.marked false = d.file.marked false := by
  obtain ⟨hproper', hhome⟩ := (usesAt_openFile hproper h).isProper hproper
  rw [← hsame] at hproper' hhome
  obtain ⟨loc, content, t, c, hlocation, -, hlocate, hopen, -, hd⟩ := outcome_openFile_ok_iff.1 h
  obtain ⟨loc', content', t', c', hlocation', -, hlocate', hopen', -, hd'⟩ :=
    outcome_openFile_ok_iff.1 h'
  obtain rfl := FileTree.location?_unique hhome hlocation' hlocation
  refine ⟨by rw [hd, hd'], ?_⟩
  cases hfixed : request.isFixed with
  | true =>
    have hfiles : s₁.files = t :=
      hsame.trans ((Opening.isIdle_openContent hfixed).files hopen)
    rw [hfiles, locate_again hproper hlocation hlocate] at hlocate'
    obtain ⟨rfl, rfl⟩ := Prod.mk.inj (Except.ok.inj hlocate')
    obtain ⟨hc, -⟩ := Prod.mk.inj (hopen.symm.trans hopen')
    obtain rfl := Except.ok.inj hc
    rw [hd, hd']
  | false =>
    have hheld := (held?_of_openFile hproper hfixed h (by rw [hd])).2
    have hheld' := (held?_of_openFile hproper' hfixed h' (by rw [hd'])).1
    rw [hsame, hheld] at hheld'
    exact (Option.some.inj hheld').symm

theorem openIn_again (hproper : s.files.IsProper)
    (h : outcome (openIn mode name) s = (.ok d, s')) (hsame : s₁.files = s'.files)
    (h' : outcome (openIn mode name) s₁ = (.ok d', s₂)) :
    d'.path = d.path ∧ d'.file.marked false = d.file.marked false := by
  obtain ⟨request, hname, -⟩ := of_openIn h
  cases hasked : request.path with
  | some asked =>
    rw [openIn_eq hname hasked] at h h'
    exact openFile_again hproper h hsame h'
  | none =>
    have hnone : ∀ f : FileTree, place? mode name f = none := by
      intro f
      rw [place?, hname]
      simp only [hasked, Option.bind_none]
    obtain ⟨rfl, -⟩ := of_openIn_noFile h ((place?_of_openIn h).symm.trans (hnone _))
    obtain ⟨rfl, -⟩ := of_openIn_noFile h' ((place?_of_openIn h').symm.trans (hnone _))
    exact ⟨rfl, rfl⟩

theorem openIn_of_connectExisting (h : outcome (connectExisting name) s = (.ok d, s')) :
    s.files.hasFile name = true ∧ outcome (openIn .existing name) s = (.ok d, s') := by
  cases hhas : s.files.hasFile name with
  | true => exact ⟨rfl, connectExisting_of_hasFile hhas ▸ h⟩
  | false => cases (connectExisting_of_not_hasFile hhas).symm.trans h

end Database

/-! ## Lemmas: scans of stored routines -/

@[simp] theorem DatabaseFile.routinesOf_marked (file : DatabaseFile) (logged : Bool)
    (name : String) : (file.marked logged).routinesOf name = file.routinesOf name := rfl

/-- What a scan of stored routines prints. -/
def catalogPieces (c : Config) : Option Report → List Printed
  | none => [.text (noRoutinesText c.databaseName)]
  | some report => [.summary (.ofReport c.databaseName report), .text "Success.\n"]

/-- **What a scan of stored routines does** that succeeds: it reads the routines, and if there are
any it opens the database again and stores their parameters. -/
theorem scanCatalog_ok_iff :
    (scanCatalog m db c).result s = (.ok found, s₁) ↔
      ∃ d u rs, outcome (Database.connectExisting db) s = (.ok d, u) ∧
        d.file.routinesOf c.databaseName = .ok rs ∧
        (rs = [] ∧ found = none ∧ s₁ = ⟨u.files, u.printed ++ catalogPieces c none⟩ ∨
          rs ≠ [] ∧ ∃ d' d'' u' u'', found = some (c.report m rs) ∧
            outcome (Database.connectExisting db) u = (.ok d', u') ∧
            outcome (d'.update (.parameters m.now c.databaseName (c.report m rs).parameters)) u' =
              (.ok d'', u'') ∧
            s₁ = ⟨u''.files, u''.printed ++ catalogPieces c (some (c.report m rs))⟩) := by
  constructor
  · intro h
    obtain ⟨rs, u, hread, h⟩ := outcome_bind_ok h
    obtain ⟨d, u', hopen, hread⟩ := outcome_bind_ok ((Action.outcome_within_ok_iff _).1 hread)
    rw [Database.routinesOf, Database.outcome_answer] at hread
    cases hroutines : d.file.routinesOf c.databaseName with
    | error fault =>
      rw [hroutines] at hread
      cases hread
    | ok rs' =>
      rw [hroutines] at hread
      cases hread
      refine ⟨d, u, rs, hopen, hroutines, ?_⟩
      cases rs with
      | nil =>
        cases h
        exact Or.inl ⟨rfl, rfl, rfl⟩
      | cons r rs =>
        obtain ⟨d', u', hopen', h⟩ := outcome_bind_ok h
        obtain ⟨d'', u'', hupdate, h⟩ := outcome_bind_ok h
        obtain ⟨_, u₃, hempty, h⟩ := outcome_bind_ok h
        have hopen' := (Action.outcome_within_ok_iff _).1 hopen'
        cases hempty.symm.trans (outcome_emptyLog_of_update hopen' hupdate)
        cases h
        refine Or.inr ⟨by simp, d', d'', u', u'', rfl, hopen', hupdate, ?_⟩
        simp [catalogPieces]
  · rintro ⟨d, u, rs, hopen, hroutines, h⟩
    have hread : outcome (Action.within (.readingCatalog db) do
        (← Database.connectExisting db).routinesOf c.databaseName) s = (.ok rs, u) := by
      rw [Action.outcome_within_ok_iff, outcome_bind_of_ok hopen, Database.routinesOf,
        Database.outcome_answer, hroutines]
      rfl
    have hscan : outcome (scanCatalog m db c) s = _ := outcome_bind_of_ok hread
    show outcome (scanCatalog m db c) s = _
    rw [hscan]
    rcases h with ⟨rfl, rfl, rfl⟩ | ⟨hne, d', d'', u', u'', rfl, hopen', hupdate, rfl⟩
    · rfl
    · have hwithin := (Action.outcome_within_ok_iff (.openingDatabase db)).2 hopen'
      have hempty := outcome_emptyLog_of_update hopen' hupdate
      simp [outcome_bind, hne, hwithin, hupdate, hempty, catalogPieces, Except.map]

end RoutineParams
