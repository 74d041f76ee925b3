import RoutineParams.Proofs.Ensuring
import RoutineParams.Proofs.Settling

/-!
# What files hold while they are opened

Whatever happens when a database file is opened, it holds what it did, if it held anything, and so
do all files elsewhere. What its journal takes back and the changes in its log come to it before they
go, and what is made in it was held already. What the file holds is what the connection gets to see.

    outcome (openContent a path content) t = (.ok c, t') → t.held? path = some (c.file.marked false)
      and t'.held? path = t.held? path                                  (ensures_openContent)
-/

namespace RoutineParams

open Storage (Fault Image)

namespace Opening

variable {α β : Type} {a : Access} {content : Content} {h : Option DatabaseFile} {hasLog : Bool}
  {dir path : List String} {last : String} {t t' : FileTree}

/-! ## Definitions -/

/-- The file lies at the path with some content, and holds what it held. -/
def Lies (path : List String) (content : Content) (h : Option DatabaseFile) (t : FileTree) : Prop :=
  t.content? path = some content ∧ t.held? path = h

/-- The file lies at the path with some content, from which the journal takes nothing back; nor does
it from any other if the file can be written. -/
structure RolledBack (a : Access) (path : List String) (h : Option DatabaseFile)
    (content : Content) (t : FileTree) : Prop where
  lies : Lies path content h t
  settled : content.withJournal (t.content? (Companion.journal.path path)) = content
  lacksJournal : a.canWrite = true → LacksJournal t path

/-- A file still holds what it held, if it held anything, and could be written without its log. -/
def Keeps (a : Access) (path : List String) (h : Option DatabaseFile) (t : FileTree) : Prop :=
  ∀ file, h = some file → t.held? path = some file ∧ (a.canWrite = true → CaughtUp t path)

/-- The content that is opened of a file, with the changes in its log. -/
structure Rests (a : Access) (path : List String) (h : Option DatabaseFile) (hasLog : Bool)
    (content : Content) (t : FileTree) : Prop where
  content : content.held? = h
  held : t.held? path = h
  lacksLog : hasLog = false → LacksLog t path
  caughtUp : a.canWrite = true → CaughtUp t path

/-! ## Lemmas: the stages -/

theorem ensures_rollBack :
    Ensures (Lies (dir ++ [last]) content h) (rollBack a (dir ++ [last]) content)
      (RolledBack a (dir ++ [last]) h) (Lies (dir ++ [last]) content h) := by
  refine ensures_get fun t ht => ?_
  have hsame : content.withJournal (t.content? (Companion.journal.path (dir ++ [last]))) = content →
      (a.canWrite = true → LacksJournal t (dir ++ [last])) →
      Ensures (· = t) (pure content) (RolledBack a (dir ++ [last]) h)
        (Lies (dir ++ [last]) content h) := by
    intro hsettled hlacks
    refine ensures_pure ?_
    rintro _ rfl
    exact ⟨ht, hsettled, hlacks⟩
  have hthrow : ∀ fault, Ensures (· = t) (throw fault) (RolledBack a (dir ++ [last]) h)
      (Lies (dir ++ [last]) content h) := fun _ => ensures_throw fun _ hu => hu ▸ ht
  split
  · rename_i hbeside
    have hlacks := LacksJournal.of_isSettled (Or.inl hbeside)
    exact hsame (hlacks content) fun _ => hlacks
  · rename_i hbeside
    refine ensures_ite (fun _ => ?_) fun _ => hthrow _
    rw [FileTree.beside_eq_directory_iff] at hbeside
    have hlacks : LacksJournal t (dir ++ [last]) := by
      intro content
      rw [FileTree.content?_of_isDirectory hbeside, Content.withJournal_none]
    exact hsame (hlacks content) fun _ => hlacks
  rename_i first hbeside
  refine ensures_ite (fun hblank => ?_) fun _ => ensures_ite (fun hfirst => ?_) fun _ =>
    ensures_ite (fun _ => ?_) fun _ => hthrow _
  · -- beside a file without pages a journal says nothing
    have hsettled := Content.withJournal_of_isBlank hblank
    refine ensures_ite (fun _ => ?_) fun hwrite => hsame (hsettled _) fun h => absurd h hwrite
    refine ensures_bind (R := fun _ => RolledBack a (dir ++ [last]) h content)
      (ensures_modify ?_) fun _ => ensures_pure fun _ ht => ht
    rintro _ rfl
    have hcontent := (content?_eraseBeside _ .journal).trans ht.1
    refine ⟨⟨hcontent, ?_⟩, hsettled _, fun _ => lacksJournal_eraseBeside _⟩
    rw [← ht.2, FileTree.held?, FileTree.held?, hcontent, ht.1, Option.getD_some,
      FileTree.settle_of_isBlank hblank, FileTree.settle_of_isBlank hblank]
  · have hlacks := LacksJournal.of_isSettled (Or.inr (hfirst ▸ hbeside))
    exact hsame (hlacks content) fun _ => hlacks
  · -- the file that is put holds what it did with its journal
    refine ensures_get fun u hu => ?_
    extract_lets restored
    refine ensures_bind (R := fun _ => RolledBack a (dir ++ [last]) h restored)
      (ensures_modify ?_) fun _ => ensures_pure fun _ ht => ht
    subst hu
    rintro t rfl
    have hlacks : LacksJournal ((t.put (dir ++ [last]) (.file restored)).eraseBeside (dir ++ [last])
      .journal) (dir ++ [last]) := lacksJournal_eraseBeside _
    refine ⟨⟨?_, ?_⟩, hlacks _, fun _ => hlacks⟩
    · rw [content?_eraseBeside, FileTree.content?_put_self]
    · rw [← ht.2, FileTree.held?, FileTree.held?, FileTree.settle, FileTree.settle, hlacks,
        content?_eraseBeside, FileTree.content?_put_self, ht.1, Option.getD_some, Option.getD_some,
        content?_eraseBeside_of_ne _ (by simp), content?_beside_put]

theorem ensures_findLog :
    Ensures (RolledBack a (dir ++ [last]) h content) (findLog a (dir ++ [last]) content.isBlank)
      (fun hasLog t => RolledBack a (dir ++ [last]) h content t ∧
        (hasLog = false → LacksLog t (dir ++ [last])) ∧ (hasLog = true → content.isBlank = false))
      (Lies (dir ++ [last]) content h) := by
  refine ensures_get fun t ht => ?_
  split
  · rename_i hbeside
    refine ensures_pure ?_
    rintro _ rfl
    exact ⟨ht, fun _ => .of_beside hbeside, fun h => (by cases h)⟩
  · exact ensures_throw fun _ hu => hu ▸ ht.lies
  refine ensures_ite (fun hblank => ?_) fun hblank => ensures_ite (fun _ => ?_) fun _ => ?_
  · refine ensures_bind (R := fun _ t => RolledBack a (dir ++ [last]) h content t ∧
      LacksLog t (dir ++ [last])) (ensures_modify ?_) fun _ => ensures_pure fun t ht =>
        ⟨ht.1, fun _ => ht.2, fun h => (by cases h)⟩
    rintro _ rfl
    have hcontent := (content?_eraseBeside _ .log).trans ht.lies.1
    refine ⟨⟨⟨hcontent, ?_⟩, Content.withJournal_of_isBlank hblank _, fun hwrite =>
      (ht.lacksJournal hwrite).eraseBeside .log⟩, lacksLog_eraseBeside _⟩
    rw [← ht.lies.2, FileTree.held?, FileTree.held?, hcontent, ht.lies.1, Option.getD_some,
      FileTree.settle_of_isBlank hblank, FileTree.settle_of_isBlank hblank]
  · refine ensures_pure ?_
    rintro _ rfl
    exact ⟨ht, fun h => (by cases h), fun _ => by simpa using hblank⟩
  · exact ensures_throw fun _ hu => hu ▸ ht.lies

/-- What is made of a file with a log. -/
theorem outcome_catchUp (hblank : content.isBlank = false) :
    outcome (catchUp a path content) t =
        (.ok (content.withLog (t.content? (Companion.log.path path))), t) ∧
      (a.canWrite = true →
        content.withLog (t.content? (Companion.log.path path)) = content) ∨
    a.canWrite = true ∧ outcome (catchUp a path content) t =
      (.ok (content.withLog (t.content? (Companion.log.path path))),
        t.put path (.file (content.withLog (t.content? (Companion.log.path path))))) := by
  cases content with
  | database file => exact Or.inl ⟨by simp [catchUp, Except.map], fun _ => rfl⟩
  | bytes data =>
    rw [catchUp, outcome_bind, outcome_get]
    simp only
    unfold FileTree.content?
    generalize t.node? (Companion.log.path path) = node
    rcases node with _ | (entries | (log | file))
    · exact Or.inl ⟨rfl, fun _ => rfl⟩
    · exact Or.inl ⟨rfl, fun _ => rfl⟩
    · have hwith : (Content.bytes data).withLog (some (.bytes log)) =
          .bytes (Storage.Log.apply log data) := if_neg (by simpa [Content.isBlank] using hblank)
      simp only [hwith]
      cases hwrite : a.canWrite with
      | true => exact Or.inr ⟨rfl, rfl⟩
      | false => exact Or.inl ⟨rfl, fun h => (by cases h)⟩
    · exact Or.inl ⟨rfl, fun _ => rfl⟩

theorem ensures_catchUp :
    Ensures (fun t => RolledBack a (dir ++ [last]) h content t ∧
        (true = false → LacksLog t (dir ++ [last])) ∧ (true = true → content.isBlank = false))
      (catchUp a (dir ++ [last]) content) (Rests a (dir ++ [last]) h true) fun _ => False := by
  rintro t ⟨⟨⟨hcontent, hheld⟩, hsettled, hlacks⟩, -, hblank⟩
  have hsame : (content.withLog (t.content? (Companion.log.path (dir ++ [last])))).held? = h := by
    rw [← hheld, FileTree.held?, hcontent, Option.getD_some, FileTree.settle, hsettled]
  rcases @outcome_catchUp a content (dir ++ [last]) t (hblank rfl) with
    ⟨hout, hwith⟩ | ⟨hwrite, hout⟩
  · rw [hout]
    refine ⟨hsame, hheld, fun h => (by cases h), fun hwrite => ⟨hlacks hwrite, ?_⟩⟩
    intro content' hcontent'
    obtain rfl := Option.some.inj (hcontent.symm.trans hcontent')
    exact hwith hwrite
  · rw [hout]
    have hput := FileTree.content?_put_self t (dir ++ [last])
      (content.withLog (t.content? (Companion.log.path (dir ++ [last]))))
    have hcaught : CaughtUp (t.put (dir ++ [last]) (.file (content.withLog
        (t.content? (Companion.log.path (dir ++ [last])))))) (dir ++ [last]) := by
      refine ⟨(hlacks hwrite).put _, fun content' hcontent' => ?_⟩
      obtain rfl := Option.some.inj (hput.symm.trans hcontent')
      rw [content?_beside_put, Content.withLog_withLog]
    refine ⟨hsame, ?_, fun h => (by cases h), fun _ => hcaught⟩
    rw [hcaught.held?, hput, Option.getD_some, hsame]

/-! ## Lemmas: the file -/

theorem Rests.keeps (ht : Rests a path h hasLog content t) : Keeps a path h t := by
  rintro file rfl
  exact ⟨ht.held, ht.caughtUp⟩

theorem Keeps.eraseJournal (ht : Keeps a (dir ++ [last]) h t) (hwrite : a.canWrite = true) :
    Keeps a (dir ++ [last]) h (t.eraseBeside (dir ++ [last]) .journal) := by
  intro file hfile
  obtain ⟨hheld, hcaught⟩ := ht file hfile
  have hcaught := hcaught hwrite
  exact ⟨(hcaught.lacksJournal.held?_eraseBeside (by simp)).trans hheld, fun _ =>
    hcaught.eraseBeside (by simp)⟩

theorem Rests.eraseJournal (ht : Rests a (dir ++ [last]) h hasLog content t)
    (hwrite : a.canWrite = true) :
    Rests a (dir ++ [last]) h hasLog content (t.eraseBeside (dir ++ [last]) .journal) := by
  have hcaught := ht.caughtUp hwrite
  exact ⟨ht.content, (hcaught.lacksJournal.held?_eraseBeside (by simp)).trans ht.held, fun hlog =>
    (ht.lacksLog hlog).eraseBeside (by simp), fun _ => hcaught.eraseBeside (by simp)⟩

theorem ensures_startJournal (hwrite : a.canWrite = true) :
    Ensures (Rests a (dir ++ [last]) h hasLog content) (startJournal (dir ++ [last]))
      (fun _ => Rests a (dir ++ [last]) h hasLog content) (Keeps a (dir ++ [last]) h) := by
  refine ensures_get fun t ht => ensures_ite (fun _ => ensures_modify ?_) fun _ => ensures_throw ?_
  · rintro _ rfl
    exact ht.eraseJournal hwrite
  · rintro _ rfl
    exact ht.keeps

/-- A file that is put in place of one that held the same keeps that. -/
theorem keeps_put {content' : Content} (hheld : ∀ file, h = some file → content'.held? = some file)
    (hjournal : LacksJournal t (dir ++ [last]))
    (hlog : content'.withLog (t.content? (Companion.log.path (dir ++ [last]))) = content') :
    Keeps a (dir ++ [last]) h (t.put (dir ++ [last]) (.file content')) := by
  have hput := FileTree.content?_put_self t (dir ++ [last]) content'
  have hcaught : CaughtUp (t.put (dir ++ [last]) (.file content')) (dir ++ [last]) := by
    refine ⟨hjournal.put _, fun content'' hcontent => ?_⟩
    obtain rfl := Option.some.inj (hput.symm.trans hcontent)
    rw [content?_beside_put, hlog]
  refine fun file hfile => ⟨?_, fun _ => hcaught⟩
  rw [hcaught.held?, hput, Option.getD_some, hheld file hfile]

/-- What preparing pages makes of them is what they hold; but nothing is made of pages that cannot be
written. -/
theorem held?_of_outcome_prepare {im prepared : Image} {isFrozen : Bool} {r : Except Fault Unit}
    (hfind : find content = .ok (.pages im isFrozen)) {write : Except Fault Unit}
    (hout : outcome (Image.prepare write) (im.marked false) = (r, prepared)) :
    (∀ u, r = .ok u → content.held? = some (.ofImage prepared)) ∧
      (∀ fault, r = .error fault → content.held? = none ∨ prepared = im.marked false) := by
  have hheld := Content.held?_of_pages hfind
  cases write with
  | ok u =>
    rw [hout] at hheld
    cases r with
    | ok u => exact ⟨fun _ _ => hheld, fun _ h => (by cases h)⟩
    | error fault => exact ⟨fun _ h => (by cases h), fun _ _ => Or.inl hheld⟩
  | error fault =>
    cases r with
    | ok u =>
      obtain ⟨rfl, hok⟩ := Image.prepare_of_unwritable hout (.ok ⟨⟩)
      rw [hok] at hheld
      exact ⟨fun _ _ => hheld, fun _ h => (by cases h)⟩
    | error fault' =>
      obtain ⟨hsame, -⟩ := Image.isIdleFor_prepare fault (.ok ⟨⟩) (im.marked false)
      rw [hout] at hsame
      exact ⟨fun _ h => (by cases h), fun _ _ => Or.inr hsame⟩

/-- What is opened of pages is what they hold, and no file is changed that holds anything but the
journal. -/
theorem of_prepare {im : Image} {isFrozen logs : Bool}
    (hfind : find content = .ok (.pages im isFrozen)) {write : Except Fault Unit}
    {r : Except Fault DatabaseFile}
    (hout : outcome (prepare path write (im.marked logs)) t = (r, t')) :
    (∀ file, r = .ok file → content.held? = some (file.marked false)) ∧
      (content.held? = none ∨ t' = t ∨ t' = t.eraseBeside path .journal) := by
  have hmarks := Image.marksAll_prepare write (im.marked false) logs
  have hlogged := Image.keepsLogged_prepare write (im.marked false)
  rw [Image.marked_marked] at hmarks
  generalize hprepared : outcome (Image.prepare write) (im.marked false) = x at hmarks hlogged
  obtain ⟨result, prepared⟩ := x
  obtain ⟨hok, herror⟩ := held?_of_outcome_prepare hfind hprepared
  have hrun : (ExceptT.run (Image.prepare write)).run (im.marked logs) = _ := hmarks
  rw [prepare, hrun] at hout
  cases result with
  | ok u =>
    have hfile : (DatabaseFile.ofImage (prepared.marked logs)).marked false = .ofImage prepared := by
      obtain ⟨page, encoding, logged, counts, trees⟩ := prepared
      obtain rfl : logged = false := hlogged
      rfl
    rw [← hfile] at hok
    dsimp only at hout
    split at hout
    · cases hout
      exact ⟨fun file h => by cases h; exact hok _ rfl, Or.inr (Or.inr rfl)⟩
    · cases hout
      exact ⟨fun file h => by cases h; exact hok _ rfl, Or.inr (Or.inl rfl)⟩
  | error fault =>
    rcases herror fault rfl with hnone | rfl
    · refine ⟨fun file h => ?_, Or.inl hnone⟩
      subst h
      dsimp only at hout
      split at hout <;> split at hout <;> cases hout
    · obtain ⟨rfl, rfl⟩ : .error fault = r ∧ t = t' := by simpa using hout
      exact ⟨fun file h => (by cases h), Or.inr (Or.inl rfl)⟩

theorem ensures_prepare {im : Image} {isFrozen logs : Bool}
    (hfind : find content = .ok (.pages im isFrozen)) (hheld : content.held? = h)
    {write : Except Fault Unit} (hwrite : write = .ok ⟨⟩ → a.canWrite = true) :
    Ensures (Keeps a (dir ++ [last]) h) (prepare (dir ++ [last]) write (im.marked logs))
      (fun file t => h = some (file.marked false) ∧ Keeps a (dir ++ [last]) h t)
      (Keeps a (dir ++ [last]) h) := by
  subst hheld
  intro t ht
  generalize hout : outcome (prepare (dir ++ [last]) write (im.marked logs)) t = x
  obtain ⟨r, t'⟩ := x
  obtain ⟨hfile, hsame⟩ := of_prepare hfind hout
  have hkeeps : Keeps a (dir ++ [last]) content.held? t' := by
    cases write with
    | error fault => exact (isIdle_prepare rfl _).files hout ▸ ht
    | ok u =>
      rcases hsame with hnone | rfl | rfl
      · exact fun file hfile => (by cases hnone.symm.trans hfile)
      · exact ht
      · exact ht.eraseJournal (hwrite rfl)
  cases r with
  | ok file => exact ⟨hfile file rfl, hkeeps⟩
  | error fault => exact hkeeps

theorem ensures_openWith (usesLog : Bool) :
    Ensures (Rests a (dir ++ [last]) h hasLog content)
      (openWith a (hasLog || usesLog) (dir ++ [last]) content)
      (fun c t => h = some (c.file.marked false) ∧ Keeps a (dir ++ [last]) h t)
      (Keeps a (dir ++ [last]) h) := by
  unfold openWith
  refine ensures_ofExcept (fun fault t _ ht => ht.keeps) fun found hfind => ?_
  extract_lets isFrozen canWrite switches logs rest switched
  have hrest : content.held? = h → ∀ u, Ensures (Keeps a (dir ++ [last]) h) (rest u)
      (fun c t => h = some (c.file.marked false) ∧ Keeps a (dir ++ [last]) h t)
      (Keeps a (dir ++ [last]) h) := by
    intro hheld u
    refine ensures_get fun t ht => ?_
    extract_lets isStuck canWrite' done write
    have hcan : canWrite' = true → a.canWrite = true := by
      simp only [canWrite', canWrite, Bool.and_eq_true]
      exact fun h => h.1.1.1
    -- what is written at last is what is held
    have hdone : ∀ file, Ensures (fun t => h = some (file.marked false) ∧
          Keeps a (dir ++ [last]) h t) (done file)
        (fun c t => h = some (c.file.marked false) ∧ Keeps a (dir ++ [last]) h t)
        (Keeps a (dir ++ [last]) h) := by
      intro file
      refine ensures_ite (fun hwrite => ?_) fun _ => ensures_pure fun t ht => ht
      refine ensures_bind (R := fun _ t => h = some (file.marked false) ∧
        Keeps a (dir ++ [last]) h t) (ensures_modify ?_) fun _ => ensures_pure fun t ht => ht
      rintro t ⟨hfile, ht⟩
      refine ⟨hfile, keeps_put (fun file' hfile' => hfile.symm.trans hfile') ?_ rfl⟩
      exact ((ht _ hfile).2 (hcan hwrite)).lacksJournal
    intro u hu
    subst hu
    cases found with
    | ready file =>
      have hfile : h = some ((file.marked logs).marked false) := by
        rw [← hheld, Content.held?, hfind]
        rfl
      exact hdone (file.marked logs) u ⟨hfile, ht⟩
    | pages im isFrozen' =>
      refine ensures_bind (ensures_prepare hfind hheld fun hok => hcan ?_) hdone u ht
      unfold write at hok
      split at hok
      · cases hok
      · simpa using ‹¬¬canWrite' = true›
  cases hswitches : switches with
  | false =>
    rw [if_neg (by simp)]
    exact fun t ht => hrest ht.content ⟨⟩ t ht.keeps
  | true =>
    -- no log is in use yet, so what is put is what is held
    have hnoLog : hasLog = false := by
      cases hasLog with
      | false => rfl
      | true => simp [switches] at hswitches
    rw [if_pos rfl]
    refine ensures_ite (fun _ t ht => ht.keeps) fun hcan t ht => ?_
    have hwrite : a.canWrite = true := by
      simp only [canWrite, Decidable.not_not, Bool.and_eq_true] at hcan
      exact hcan.1.1
    have hrest := hrest ht.content
    refine ensures_bind (ensures_startJournal hwrite) (fun _ => ?_) t ht
    refine ensures_bind (ensures_modify fun t ht => keeps_put (fun file hfile => ?_) ?_ ?_) hrest
    · rw [Content.held?_markLogged hfind, ht.content, hfile]
    · exact (ht.caughtUp hwrite).lacksJournal
    · exact ht.lacksLog hnoLog _

/-- What a file holds stays when its log is closed. -/
theorem Keeps.closeLog (ht : Keeps a (dir ++ [last]) h t) {file : DatabaseFile}
    (hfile : h = some file) : (closeLog a (dir ++ [last]) t).held? (dir ++ [last]) = some file := by
  obtain ⟨hheld, hcaught⟩ := ht file hfile
  unfold Opening.closeLog
  extract_lets blank kept
  have hkept : kept.held? (dir ++ [last]) = some file := by
    unfold kept
    split
    · rename_i hnothing
      have hsame : (t.put (Companion.log.path (dir ++ [last])) (blank 0)).content? (dir ++ [last]) =
          t.content? (dir ++ [last]) := by
        rw [Companion.path_append]
        exact FileTree.content?_congr (FileTree.node?_put_of_ne _ (Companion.append_suffix_ne _ _) _)
      have hjournal : (t.put (Companion.log.path (dir ++ [last])) (blank 0)).content?
          (Companion.journal.path (dir ++ [last])) =
            t.content? (Companion.journal.path (dir ++ [last])) := by
        rw [Companion.path_append, Companion.path_append]
        exact FileTree.content?_congr
          (FileTree.node?_put_of_ne _ (Companion.append_suffix_inj last (by simp)) _)
      have hnode := FileTree.node?_put_self t (Companion.log.path (dir ++ [last])) (blank 0)
      have hempty : LacksLog (t.put (Companion.log.path (dir ++ [last])) (blank 0))
          (dir ++ [last]) := .of_beside (by rw [FileTree.beside, hnode]; rfl)
      rw [hempty.held?, hsame, hjournal, ← (LacksLog.of_beside hnothing).held?, hheld]
    · exact hheld
  split
  · exact hkept
  split
  · rename_i hwrite
    have hlacks := (hcaught hwrite).lacksJournal.eraseBeside .log
    rw [hlacks.held?_eraseBeside (by simp), (hcaught hwrite).held?_eraseBeside, hheld]
  · rw [Companion.path_append]
    refine (FileTree.held?_congr ?_ fun c hc => ?_).trans hkept
    · exact FileTree.content?_congr (FileTree.node?_put_of_ne _ (Companion.append_suffix_ne _ _) _)
    · rw [Companion.path_append]
      exact FileTree.content?_congr
        (FileTree.node?_put_of_ne _ (Companion.append_suffix_inj last hc.symm) _)

/-! ## Top theorem (proved from the lemmas above) -/

/-- **A file that is opened holds what it did**, and that is what was opened of it. -/
theorem ensures_openContent (hfixed : a.isFixed = false) :
    Ensures (Lies (dir ++ [last]) content h) (openContent a (dir ++ [last]) content)
      (fun c t => h = some (c.file.marked false) ∧ t.held? (dir ++ [last]) = h)
      (fun t => ∀ file, h = some file → t.held? (dir ++ [last]) = some file) := by
  refine ensures_openContent_of_stages hfixed (F := Keeps a (dir ++ [last]) h)
    (ensures_rollBack.mono (fun _ _ ht => ht) ?_)
    (fun _ => ensures_findLog.mono (fun _ _ ht => ht) ?_) ?_
    (fun _ => ensures_catchUp.mono (fun _ _ ht => ht) fun _ ht => ht.elim) ?_
    (fun _ usesLog _ => ensures_openWith usesLog) ?_ ?_
  · rintro t ⟨-, hheld⟩ file rfl
    exact hheld
  · rintro t ⟨-, hheld⟩ file rfl
    exact hheld
  · rintro content hasLog t ⟨⟨⟨-, hheld⟩, -, -⟩, -⟩ file rfl
    exact hheld
  · rintro content t ⟨⟨⟨hcontent, hheld⟩, hsettled, hjournal⟩, hlacks, -⟩
    have hlacks := hlacks rfl
    refine ⟨?_, hheld, fun _ => hlacks, fun hwrite => hlacks.caughtUp (hjournal hwrite)⟩
    rw [← hheld, hlacks.held?, hcontent, Option.getD_some, hsettled]
  · rintro c t ⟨hfile, ht⟩
    exact ⟨⟨hfile, hfile ▸ (ht _ hfile).1⟩, hfile, hfile ▸ ht.closeLog hfile⟩
  · exact fun t ht => ⟨fun file hfile => (ht file hfile).1, fun file hfile => ht.closeLog hfile⟩

end Opening

end RoutineParams
