import RoutineParams.Proofs.Preparing
import RoutineParams.Proofs.Reopening

/-!
# New database files

The file of a database that is not there yet is made without content, and then opened. That succeeds
only where the file can be changed, and leaves it with both tables, which hold nothing. Nothing is
in the way of the changes that follow.

    outcome (openContent a loc (.bytes .empty)) t = (.ok c, t') →
      c = ⟨newFile a.canLog, true, false⟩ ∧ Fit a.canLog t' loc c.file      (fit_of_openContent_new)
    outcome (connect name) s = (.ok d, s') → s.files.node? loc = none →
      d.HasStore s' request.canLog loc .empty                                      (new_of_connect)
-/

namespace RoutineParams

open Storage (Fault Image)

/-- What a database file holds that was made and opened. -/
def DatabaseFile.newFile (logged : Bool) : DatabaseFile :=
  ⟨some .empty, .listing logged Image.preparedKinds Image.preparedRows⟩

open DatabaseFile (newFile)

/-! ## Lemmas: opening a file without content -/

namespace Opening

variable {canLog : Bool} {dir : List String} {last : String} {path : List String} {t t' : FileTree}
  {c : Connection}

/-- What is made of a file that is prepared, if nothing is in the way. -/
theorem outcome_prepare_ok {write : Except Fault Unit} {im prepared : Image}
    (h : outcome (Image.prepare write) im = (.ok ⟨⟩, prepared)) :
    outcome (prepare path write im) t = (.ok (.ofImage prepared),
      if prepared.trees.length ≠ im.trees.length ∧ ¬im.logged then t.eraseBeside path .journal
      else t) := by
  rw [outcome] at h
  simp only [prepare, h]
  split <;> rfl

/-- A fault before anything was made leaves all files. -/
theorem outcome_prepare_error {write : Except Fault Unit} {im : Image} {fault : Fault}
    (h : outcome (Image.prepare write) im = (.error fault, im)) :
    outcome (prepare path write im) t = (.error fault, t) := by
  rw [outcome] at h
  simp only [prepare, h]
  simp

theorem prepare_new (logged : Bool) :
    outcome (prepare path (.ok ⟨⟩) (.fresh logged)) t =
      (.ok (newFile logged), if logged then t else t.eraseBeside path .journal) := by
  have htrees : (Image.listing logged Image.preparedKinds Image.preparedRows).trees.length ≠
      (Image.fresh logged).trees.length := Nat.ne_of_beq_eq_false rfl
  rw [outcome_prepare_ok (Image.prepare_fresh logged), DatabaseFile.ofImage,
    Image.storeOf?_prepared]
  cases logged with
  | false => rw [if_pos ⟨htrees, Bool.false_ne_true⟩]; rfl
  | true => rw [if_neg fun h => h.2 rfl]; rfl

theorem prepare_new_error (logged : Bool) (fault : Fault) :
    outcome (prepare path (.error fault) (.fresh logged)) t = (.error fault, t) :=
  outcome_prepare_error (Image.prepare_fresh_error logged fault)

/-- The pages of a file without content, by what comes of preparing them. What they are is not
looked at further on. -/
theorem find_new (path : List String) (logged : Bool) :
    ∃ im, find (.bytes .empty) = .ok (.pages im false) ∧
      (∀ t, outcome (prepare path (.ok ⟨⟩) { im with logged }) t =
        (.ok (newFile logged), if logged then t else t.eraseBeside path .journal)) ∧
      ∀ fault t, outcome (prepare path (.error fault) { im with logged }) t = (.error fault, t) :=
  ⟨.fresh false, rfl, fun _ => prepare_new logged, fun fault _ => prepare_new_error logged fault⟩

/-- A file that nobody changes cannot be made. -/
theorem openContent_new_of_isFixed {a : Access} (h : a.isFixed = true) :
    outcome (openContent a path (.bytes .empty)) t = (.error .readOnly, t) := by
  obtain ⟨im, hfind, -, herror⟩ := find_new path false
  have hopen : outcome (openWith a false path (.bytes .empty)) t = (.error .readOnly, t) := by
    simp [openWith, outcome_bind, h, hfind, herror, Except.map]
  simp [openContent, outcome_bind, outcome_tryCatch, h, hopen]

/-- What is made of a file without content that is opened where no log is kept. -/
theorem outcome_openWith_unlogged :
    outcome (openWith (changing false) false path (.bytes .empty)) t =
      if t.canMakeBeside path .journal then
        (.ok ⟨newFile false, true, false⟩,
          (t.eraseBeside path .journal).put path (.file (.database (newFile false))))
      else (.error .cannotOpen, t) := by
  obtain ⟨im, hfind, hok, herror⟩ := find_new path false
  cases hcan : t.canMakeBeside path .journal with
  | false => simp [openWith, outcome_bind, hfind, hcan, herror]
  | true => simp [openWith, outcome_bind, hfind, hcan, hok, Except.map]

/-- The file after it was said that its changes are first written to a log. -/
def marked (t : FileTree) (path : List String) : FileTree :=
  (t.eraseBeside path .journal).put path (.file (markLogged (.bytes .empty)))

/-- What is made of a file without content that is opened where a log is kept. -/
theorem outcome_openWith_logged :
    outcome (openWith (changing true) false path (.bytes .empty)) t =
      if t.canMakeBeside path .journal then
        if (marked t path).beside path .logIndex = .directory then
          (.error .readOnly, marked t path)
        else
          (.ok ⟨newFile true, true, false⟩,
            (marked t path).put path (.file (.database (newFile true))))
      else (.error .cannotOpen, t) := by
  obtain ⟨im, hfind, hok, herror⟩ := find_new path true
  cases hcan : t.canMakeBeside path .journal with
  | false => simp [openWith, outcome_bind, hfind, startJournal, hcan]
  | true =>
    have hmarked : (t.eraseBeside path .journal).put path (.file (markLogged (.bytes .empty))) =
        marked t path := rfl
    by_cases hindex : (marked t path).beside path .logIndex = .directory
    · simp [openWith, outcome_bind, hfind, startJournal, hcan, hmarked, hindex, herror, Except.map]
    · simp [openWith, outcome_bind, hfind, startJournal, hcan, hmarked, hindex, hok, Except.map]

/-- **A new file that was opened** holds empty tables and is fit. -/
theorem fit_of_openContent_new {a : Access} (hwrite : a.canWrite = true)
    (hloc : ¬t.IsDirectory (dir ++ [last]))
    (h : outcome (openContent a (dir ++ [last]) (.bytes .empty)) t = (.ok c, t')) :
    a.isFixed = false ∧ c = ⟨newFile a.canLog, true, false⟩ ∧
      Fit a.canLog t' (dir ++ [last]) (newFile a.canLog) := by
  have hfixed : a.isFixed = false := by
    cases hfixed : a.isFixed with
    | false => rfl
    | true => cases (openContent_new_of_isFixed hfixed).symm.trans h
  obtain ⟨canWrite, isFixed, canLog⟩ := a
  obtain rfl : canWrite = true := hwrite
  obtain rfl : isFixed = false := hfixed
  obtain ⟨hasLog, usesLog, content, t₁, t₂, t₃, t₄, hstages⟩ := stages_of_openContent h
  obtain rfl := content_of_rollBack rfl hstages.rolledBack
  obtain rfl := hstages.usesLog_of_isBlank rfl
  obtain rfl := hstages.hasLog_of_isBlank rfl
  obtain ⟨content, hcontent, hopen⟩ := hstages.wasOpened
  obtain ⟨rfl, rfl⟩ := hcontent rfl
  have hopened : c.canWrite = true → Opened canLog t' (dir ++ [last]) c.file :=
    opened_of_openContent hloc h
  refine ⟨rfl, ?_⟩
  cases canLog with
  | true =>
    rw [outcome_openWith_logged] at hopen
    split at hopen
    · split at hopen
      · cases hopen
      · cases hopen
        obtain ⟨hnode, hlogged, htidy, -⟩ := hopened rfl
        exact ⟨rfl, hnode, hlogged, htidy rfl⟩
    · cases hopen
  | false =>
    rw [outcome_openWith_unlogged] at hopen
    split at hopen
    · rename_i hcan
      have hclosed := hstages.closed
      cases hopen
      obtain rfl : t' = _ := hclosed
      obtain ⟨hnode, hlogged, -, hlog⟩ := hopened rfl
      obtain ⟨hnot, hlength⟩ := of_canMakeBeside hcan
      refine ⟨rfl, hnode, hlogged, .unlogged ⟨?_, hlength⟩ (hlog rfl)⟩
      exact (FileTree.node?_beside_put _ _ _).trans (FileTree.node?_eraseBeside_self hnot)
    · cases hopen

/-- A new file beside which nothing lies is opened. -/
theorem openContent_new_of_isFree (h : ∀ c : Companion, c.IsFree t (dir ++ [last])) :
    ∃ t', outcome (openContent (changing canLog) (dir ++ [last]) (.bytes .empty)) t =
      (.ok ⟨newFile canLog, true, false⟩, t') := by
  have hblank : Content.isBlank (.bytes .empty) = true := rfl
  have hlogged : isLogged (.bytes .empty) = false := rfl
  have hnothing : ∀ c, t.beside (dir ++ [last]) c = .nothing := fun c =>
    FileTree.beside_of_none (h c).none
  have hroll : outcome (rollBack (changing canLog) (dir ++ [last]) (.bytes .empty)) t =
      (.ok (.bytes .empty), t) := by
    rw [rollBack, outcome_bind, outcome_get]
    simp only [hnothing]
    rfl
  have hlog : outcome (findLog (changing canLog) (dir ++ [last]) true) t = (.ok false, t) := by
    rw [findLog, outcome_bind, outcome_get]
    simp only [hnothing]
    rfl
  obtain ⟨u, hopen⟩ : ∃ u, outcome (openWith (changing canLog) false (dir ++ [last])
      (.bytes .empty)) t = (.ok ⟨newFile canLog, true, false⟩, u) := by
    have hcan := (h .journal).canMakeBeside
    cases canLog with
    | false => exact ⟨_, by rw [outcome_openWith_unlogged, if_pos hcan]⟩
    | true =>
      have hindex : (marked t (dir ++ [last])).beside (dir ++ [last]) .logIndex = .nothing := by
        refine FileTree.beside_of_none ((FileTree.node?_beside_put _ _ _).trans ?_)
        exact (FileTree.node?_eraseBeside_of_ne t (by simp)).trans (h .logIndex).none
      exact ⟨_, by rw [outcome_openWith_logged, if_pos hcan, if_neg (by simp [hindex])]⟩
  simp [openContent, outcome_bind, outcome_tryCatch, hblank, hlogged, hroll, hlog, hopen,
    Except.map]

end Opening

/-! ## Lemmas: connecting to a new database -/

namespace Database

variable {name : String} {s s' : Session} {d : Database} {loc : List String}

/-- **A database whose file was not there** holds empty tables in a fit file. -/
theorem new_of_connect (hproper : s.files.IsProper) (h : outcome (connect name) s = (.ok d, s'))
    (hpath : d.path = some loc) (hnew : s.files.node? loc = none) :
    d.name = name ∧ ∃ request asked, IsPlaced s'.files name request asked loc ∧
      d.HasStore s' request.canLog loc .empty := by
  obtain ⟨request, hname, -⟩ := of_openIn h
  obtain ⟨asked, hasked⟩ := exists_asked_of_openIn hname hpath h
  have hopened := h
  rw [connect, openIn_eq hname hasked] at hopened
  obtain ⟨loc', content, t, c, hlocation, -, hlocate, hopen, -, hd⟩ :=
    outcome_openFile_ok_iff.1 hopened
  obtain rfl : loc' = loc := Option.some.inj ((congrArg Database.path hd).symm.trans hpath)
  obtain ⟨dir, last, rfl⟩ := exists_of_location? hlocation
  rcases of_locate hlocate with ⟨p, hfind, -⟩ | ⟨-, rfl, hmode, rfl, -⟩
  · -- nothing is found at the path
    obtain ⟨hway, hnode⟩ := FileTree.way_of_find hproper.root hfind
    obtain rfl := hway.eq_of_pathText (by simp) (FileTree.leadsDown_of_location? hproper hlocation)
    cases hnew.symm.trans hnode
  have hcan : request.mode ≠ .readOnly := by rw [hmode]; decide
  obtain ⟨-, rfl, hfit⟩ := Opening.fit_of_openContent_new (decide_eq_true hcan)
    (FileTree.not_isDirectory_of_file (FileTree.node?_put_self _ _ _)) hopen
  subst hd
  obtain ⟨-, request', asked', hplaced, -⟩ := placed_of_connect hproper h hpath rfl
  obtain rfl : request = request' := Except.ok.inj (hname.symm.trans hplaced.requested)
  exact ⟨rfl, request, asked', hplaced, rfl, ⟨dir, last, rfl⟩, rfl, rfl, hfit⟩

end Database

end RoutineParams
