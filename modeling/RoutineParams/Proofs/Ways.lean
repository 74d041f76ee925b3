import Mathlib.Data.List.TakeWhile
import RoutineParams.Proofs.PathTexts

/-!
# Ways to files

A path leads to a file if its names, but for the last one, lead from directory to directory. What
lies there is found by the path, and the path from the root, written as a text, is a way too.

    t.find path = .ok (p, .file content) → t.Way path p ∧ t.node? p = some (.file content), and
      back again                                                    (way_of_find, find_of_way)
    names lead to p → t.directory? path = some p, and back again
                                                          (directory?_of_leads, leads_of_find)
-/

namespace RoutineParams.FileTree

/-- A path leads to `loc` from the root, where a file may lie. -/
structure Way (t : FileTree) (path : String) (loc : List String) : Prop where
  noZero : '\x00' ∉ path.toList
  length : path.utf8ByteSize ≤ maxPathLength
  leads : ∃ above last start dir, FilePath.names path = above ++ [last] ∧
    FilePath.isIdle last = false ∧ last ≠ ".." ∧ last.utf8ByteSize ≤ maxNameLength ∧
    t.Leads [] (t.start path) start ∧ t.Leads start above dir ∧ loc = dir ++ [last]

/-- What names can name from the directory `start` on: the root, where there is nothing but slashes,
a directory, where they end in dots, and else an entry of one. -/
inductive Targets (t : FileTree) (start names : List String) : Target → Prop
  | root : (∀ name ∈ names, name = "") → Targets t start names ⟨[], none, true⟩
  | dots {trail : Trail} :
      t.Leads start names trail.path → Targets t start names ⟨trail, none, true⟩
  | entry {trail : Trail} {above blanks : List String} {last : String} {slash : Bool} :
      names = above ++ last :: blanks → (∀ name ∈ blanks, name = "") →
        (slash = false → blanks = []) → FilePath.isIdle last = false → last ≠ ".." →
        t.Leads start above trail.path → Targets t start names ⟨trail, some last, slash⟩

/-! ## Lemmas: finding -/

/-- Names end in a last one that is not empty, and in empty ones after it. -/
theorem exists_of_dropWhile_reverse {names above : List String} {last : String}
    (h : names.reverse.dropWhile (· == "") = last :: above) :
    ∃ blanks, names = above.reverse ++ last :: blanks ∧ (∀ name ∈ blanks, name = "") ∧
      last ≠ "" := by
  refine ⟨(names.reverse.takeWhile (· == "")).reverse, ?_, fun name hname => ?_, ?_⟩
  · have hnames := congrArg List.reverse (List.takeWhile_append_dropWhile (p := (· == ""))
      (l := names.reverse))
    rw [h, List.reverse_append, List.reverse_reverse, List.reverse_cons, List.append_assoc]
      at hnames
    exact hnames.symm
  · have hblank := List.mem_takeWhile_imp (List.mem_reverse.1 hname)
    exact beq_iff_eq.1 hblank
  · have hhead := List.head_dropWhile_not (· == "") (l := names.reverse) (by simp [h])
    simpa [h] using hhead

/-- What a path names is reached from where it starts. -/
theorem targets_of_target {t : FileTree} {path : String} {g : Target} (h : t.target path = .ok g) :
    '\x00' ∉ path.toList ∧ path.utf8ByteSize ≤ maxPathLength ∧ path ≠ "" ∧ t.Follows g.trail ∧
      ∃ start, t.Leads [] (t.start path) start ∧ t.Targets start (FilePath.names path) g := by
  have hnil : t.Follows [] := trivial
  rw [target] at h
  split at h
  · cases h
  rename_i hzero
  split at h
  · cases h
  rename_i hlength
  split at h
  · cases h
  rename_i hempty
  refine ⟨by simpa using hzero, Nat.not_lt.1 hlength, fun heq => hempty (by simp [heq]), ?_⟩
  cases hstart : t.descend [] (t.start path) with
  | error f => rw [hstart] at h; cases h
  | ok start =>
    rw [hstart] at h
    obtain ⟨hleads, hfollows⟩ := leads_of_descend hnil hstart
    simp only [bind, Except.bind] at h
    split at h
    · rename_i hblank
      obtain rfl := Except.ok.inj h
      refine ⟨hnil, start.path, hleads, .root fun name hname => ?_⟩
      exact beq_iff_eq.1 (List.dropWhile_eq_nil_iff.1 hblank name (List.mem_reverse.2 hname))
    rename_i last above hnames
    split at h
    · cases hdots : t.descend start (FilePath.names path) with
      | error f => rw [hdots] at h; cases h
      | ok trail =>
        rw [hdots] at h
        obtain rfl := Except.ok.inj h
        obtain ⟨hleads', hfollows'⟩ := leads_of_descend hfollows hdots
        exact ⟨hfollows', start.path, hleads, .dots hleads'⟩
    rename_i hdots
    cases habove : t.descend start above.reverse with
    | error f => rw [habove] at h; cases h
    | ok trail =>
      rw [habove] at h
      obtain rfl := Except.ok.inj h
      obtain ⟨hleads', hfollows'⟩ := leads_of_descend hfollows habove
      obtain ⟨blanks, hnames', hblanks, hne⟩ := exists_of_dropWhile_reverse hnames
      have hdot : last ≠ "." := fun heq => hdots (Or.inl heq)
      refine ⟨hfollows', start.path, hleads, .entry hnames' hblanks (fun hslash => ?_)
        (by simp [FilePath.isIdle, hne, hdot]) (fun heq => hdots (Or.inr heq)) hleads'⟩
      -- blanks after the last name come of a slash
      rcases List.eq_nil_or_concat' blanks with hnil | ⟨others, blank, rfl⟩
      · exact hnil
      · obtain rfl := hblanks blank (by simp)
        have hlast? : (FilePath.names path).getLast? = some "" := by
          rw [hnames', ← List.cons_append, ← List.append_assoc, List.getLast?_concat]
        simp [hlast?] at hslash

/-- What a path names lies below a directory. -/
theorem target_spec {t : FileTree} {path : String} {g : Target} (h : t.target path = .ok g) :
    t.Follows g.trail ∧ ∀ last, g.name = some last → g.slash = false →
      last.utf8ByteSize ≤ maxNameLength → t.Way path (g.trail.path ++ [last]) := by
  obtain ⟨hzero, hlength, -, hfollows, start, hstart, htargets⟩ := targets_of_target h
  refine ⟨hfollows, fun last hname hslash hlast => ?_⟩
  cases htargets with
  | root => cases hname
  | dots => cases hname
  | @entry trail above _ _ _ hnames _ hblanks hidle hup hleads =>
    obtain rfl := Option.some.inj hname
    rw [hblanks hslash] at hnames
    exact ⟨hzero, hlength, above, _, start, trail.path, hnames, hidle, hup, hlast, hstart, hleads,
      rfl⟩

/-- What is found at a path is the directory where its target ends, or what has the name of its
target there, which is a directory if a slash follows. -/
theorem exists_target_of_find {t : FileTree} {path : String} {loc : List String} {n : Node}
    (h : t.find path = .ok (loc, n)) : ∃ g, t.target path = .ok g ∧
      (g.name = none ∧ loc = g.trail.path ∧ n = t.endOf g.trail ∨
        ∃ last, g.name = some last ∧ last.utf8ByteSize ≤ maxNameLength ∧
          loc = g.trail.path ++ [last] ∧ t.node? loc = some n ∧
          (g.slash = true → n.IsDirectory)) := by
  rw [find] at h
  cases htarget : t.target path with
  | error f => rw [htarget] at h; cases h
  | ok g =>
    obtain ⟨hfollows, -⟩ := target_spec htarget
    refine ⟨g, rfl, ?_⟩
    rw [htarget] at h
    simp only [bind, Except.bind] at h
    split at h
    · rename_i hname
      obtain ⟨rfl, rfl⟩ := Prod.mk.inj (Except.ok.inj h)
      exact Or.inl ⟨hname, rfl, rfl⟩
    · rename_i last hname
      cases hentry : t.entry g.trail last with
      | error f => rw [hentry] at h; cases h
      | ok found =>
        obtain ⟨hlast, hnode⟩ := node?_of_entry hfollows hentry
        rw [hentry] at h
        simp only at h
        refine Or.inr ⟨last, hname, hlast, ?_⟩
        split at h
        · cases h
        · obtain ⟨rfl, rfl⟩ := Prod.mk.inj (Except.ok.inj h)
          exact ⟨rfl, hnode, fun _ => ⟨_, rfl⟩⟩
        · split at h
          · cases h
          · rename_i hslash
            obtain ⟨rfl, rfl⟩ := Prod.mk.inj (Except.ok.inj h)
            exact ⟨rfl, hnode, fun hslash' => absurd hslash' hslash⟩

/-- A path that is found to name a file leads there. -/
theorem way_of_find {t : FileTree} (hroot : t.IsDirectory []) {path : String} {loc : List String}
    {content : Content} (h : t.find path = .ok (loc, .file content)) :
    t.Way path loc ∧ t.node? loc = some (.file content) := by
  obtain ⟨g, htarget, hfound⟩ := exists_target_of_find h
  obtain ⟨hfollows, hway⟩ := target_spec htarget
  rcases hfound with ⟨-, -, hend⟩ | ⟨last, hname, hlast, rfl, hnode, hslash⟩
  · -- what ends in dots is a directory
    obtain ⟨entries, hentries⟩ := isDirectory_endOf hroot hfollows
    cases hend.trans hentries
  · cases hsl : g.slash with
    | true =>
      obtain ⟨entries, hentries⟩ := hslash hsl
      cases hentries
    | false => exact ⟨hway last hname hsl hlast, hnode⟩

/-- A path at which a file may be written leads there. -/
theorem fileToWrite_spec {t : FileTree} {path : String} {loc : List String}
    {content? : Option Content} (h : t.fileToWrite path = .ok (loc, content?)) :
    t.Way path loc ∧ t.node? loc = content?.map Node.file := by
  unfold fileToWrite at h
  cases htarget : t.target path with
  | error f => rw [htarget] at h; cases h
  | ok g =>
    obtain ⟨hfollows, hway⟩ := target_spec htarget
    rw [htarget] at h
    simp only [bind, Except.bind] at h
    split at h
    · cases h
    · cases h
    · rename_i trail last
      cases hentry : t.entry trail last with
      | error f => rw [hentry] at h; cases h
      | ok found =>
        obtain ⟨hlast, hnode⟩ := node?_of_entry hfollows hentry
        rw [hentry] at h
        simp only at h
        split at h
        · cases h
        · obtain ⟨rfl, rfl⟩ := Prod.mk.inj (Except.ok.inj h)
          exact ⟨hway last rfl rfl hlast, hnode⟩
        · obtain ⟨rfl, rfl⟩ := Prod.mk.inj (Except.ok.inj h)
          exact ⟨hway last rfl rfl hlast, hnode⟩

/-- A path names what has its last name where the names above lead. -/
theorem exists_target_of_leads {t : FileTree} {path last : String}
    {above blanks start dir : List String} (hzero : '\x00' ∉ path.toList)
    (hlength : path.utf8ByteSize ≤ maxPathLength)
    (hnames : FilePath.names path = above ++ last :: blanks)
    (hblanks : ∀ name ∈ blanks, name = "") (hidle : FilePath.isIdle last = false)
    (hup : last ≠ "..") (hstart : t.Leads [] (t.start path) start)
    (habove : t.Leads start above dir) :
    ∃ trail, t.Follows trail ∧ trail.path = dir ∧
      t.target path = .ok ⟨trail, some last, (FilePath.names path).getLast? == some ""⟩ := by
  have hnil : t.Follows [] := trivial
  obtain ⟨first, hfirst, hfollows, rfl⟩ := descend_of_leads hstart hnil rfl
  obtain ⟨trail, htrail, hfollows', rfl⟩ := descend_of_leads habove hfollows rfl
  have hne : last ≠ "" := by rintro rfl; cases hidle
  have hdot : last ≠ "." := by rintro rfl; cases hidle
  have hempty : path ≠ "" := by
    rintro rfl
    have hmem : last ∈ FilePath.names "" := by simp [hnames]
    exact hne (List.mem_singleton.1 hmem)
  have hreverse : (FilePath.names path).reverse.dropWhile (· == "") = last :: above.reverse := by
    rw [hnames, List.reverse_append, List.reverse_cons, List.append_assoc,
      List.dropWhile_append_of_pos fun name hname => by
        simp [hblanks name (List.mem_reverse.1 hname)],
      List.singleton_append, List.dropWhile_cons, if_neg (by simpa using hne)]
  refine ⟨trail, hfollows', rfl, ?_⟩
  rw [target, if_neg (by simpa using hzero), if_neg (Nat.not_lt.2 hlength),
    if_neg (by simpa using hempty), hfirst]
  simp only [bind, Except.bind, hreverse]
  rw [if_neg (by simp [hdot, hup]), List.reverse_reverse, htrail]

/-- A path that leads to a file is found to name it. -/
theorem find_of_way {t : FileTree} {path : String} {loc : List String} {n : Node}
    (h : t.Way path loc) (hnode : t.node? loc = some n) : t.find path = .ok (loc, n) := by
  obtain ⟨hzero, hlength, above, last, start, dir, hnames, hidle, hup, hlast, hstart, hleads,
    rfl⟩ := h
  obtain ⟨trail, hfollows, rfl, htarget⟩ := exists_target_of_leads hzero hlength hnames
    (fun name hname => by cases hname) hidle hup hstart hleads
  have hslash : ((FilePath.names path).getLast? == some "") = false := by
    rw [hnames, List.getLast?_concat]
    rw [beq_eq_false_iff_ne]
    rintro ⟨⟩
    cases hidle
  rw [find, htarget, hslash]
  simp only [bind, Except.bind]
  rw [entry_eq hfollows hlast, hnode]
  cases n <;> rfl

/-- A file that is a text is read as this text. -/
theorem read_of_find {t : FileTree} {path text : String} {loc : List String} {content : Content}
    (h : t.find path = .ok (loc, .file content)) (htext : content.text? = some text) :
    t.read path = .ok text := by
  rw [read, h]
  simp only [bind, Except.bind, htext]

/-! ## Lemmas: paths from the root -/

/-- A path that is written as a text from the root leads to nowhere but itself. -/
theorem Way.eq_of_pathText {t : FileTree} {path loc : List String}
    (h : t.Way (Database.pathText path) loc) (hne : path ≠ [])
    (hpath : ∀ name ∈ path, FilePath.LeadsDown name) : loc = path := by
  obtain ⟨-, -, above, last, start, dir, hnames, -, -, -, hstart, hleads, rfl⟩ := h
  rw [names_pathText hne hpath] at hnames
  rw [start_pathText] at hstart
  obtain rfl : start = [] := hstart.eq_of_leadsDown fun name hname => by cases hname
  cases above with
  | nil => exact absurd (List.cons.inj hnames).2 hne
  | cons name names =>
    obtain ⟨rfl, rfl⟩ := List.cons.inj hnames
    have hnames' : ∀ name ∈ names, FilePath.LeadsDown name := fun name hname =>
      hpath name (List.mem_append_left _ hname)
    generalize hfirst : "" = first at hleads
    cases hleads with
    | idle _ hleads =>
      rw [hleads.eq_of_leadsDown hnames']
      rfl
    | up => exact absurd hfirst (by decide)
    | down hidle => subst hfirst; cases hidle

/-- A path that is written as a text from the root leads to itself. -/
theorem way_pathText {t : FileTree} {path : List String} (hne : path ≠ [])
    (h : ∀ name ∈ path, FilePath.IsPlain name) (hdirectory : t.IsDirectory path.dropLast)
    (hlength : (Database.pathText path).utf8ByteSize ≤ maxPathLength) :
    t.Way (Database.pathText path) path := by
  obtain ⟨dir, last, rfl⟩ := (List.eq_nil_or_concat' path).resolve_left hne
  rw [List.dropLast_concat] at hdirectory
  obtain ⟨hidle, hup, -, -, hlast⟩ := h last (by simp)
  refine ⟨?_, hlength, "" :: dir, last, [], dir,
    names_pathText hne fun name hname => (h name hname).leadsDown, hidle, hup, hlast, ?_,
    .idle rfl (.of_plain (fun name hname => h name (by simp [hname])) hdirectory), rfl⟩
  · rw [toList_pathText]
    refine List.not_mem_cons_of_ne_of_not_mem (by decide) (not_mem_intercalate (by decide) ?_)
    intro piece hpiece
    obtain ⟨name, hname, rfl⟩ := List.mem_map.1 hpiece
    exact (h name hname).2.2.2.1
  · rw [start_pathText]
    exact .here

/-- The names of a path that is found to name a directory lead there. -/
theorem leads_of_find {t : FileTree} {path : String} {loc : List String}
    {entries : List (FileName × Node)} (h : t.find path = .ok (loc, .directory entries)) :
    '\x00' ∉ path.toList ∧ path.utf8ByteSize ≤ maxPathLength ∧ path ≠ "" ∧
      ∃ start, t.Leads [] (t.start path) start ∧ t.Leads start (FilePath.names path) loc := by
  obtain ⟨g, htarget, hfound⟩ := exists_target_of_find h
  obtain ⟨hzero, hlength, hne, -, start, hstart, htargets⟩ := targets_of_target htarget
  refine ⟨hzero, hlength, hne, start, hstart, ?_⟩
  rcases hfound with ⟨hnone, rfl, -⟩ | ⟨last, hname, hlast, rfl, hnode, -⟩
  · cases htargets with
    | root hblank =>
      have hroot : t.start path = [] := by
        rw [FileTree.start, if_pos (isAbsolute_of_names hne hblank)]
      rw [hroot] at hstart
      obtain rfl : start = [] := hstart.eq_of_leadsDown fun name hname => by cases hname
      exact .of_idle fun name hname => by rw [hblank name hname]; rfl
    | dots hleads => exact hleads
    | entry => cases hnone
  · cases htargets with
    | root => cases hname
    | dots => cases hname
    | entry hnames hblanks _ hidle hup hleads =>
      obtain rfl := Option.some.inj hname
      rw [hnames]
      exact hleads.append (.down hidle hup hlast ⟨_, hnode, _, rfl⟩
        (.of_idle fun name hname => by rw [hblanks name hname]; rfl))

/-- A path that ends in dots names the directory where it leads. -/
theorem directory?_of_target {t : FileTree} (hroot : t.IsDirectory []) {path : String}
    {trail : Trail} (hfollows : t.Follows trail) (h : t.target path = .ok ⟨trail, none, true⟩) :
    t.directory? path = some trail.path := by
  obtain ⟨entries, hend⟩ := isDirectory_endOf hroot hfollows
  rw [directory?, find, h]
  simp only [bind, Except.bind, hend]

/-- A path names the directory to which its names lead. -/
theorem directory?_of_leads {t : FileTree} (hroot : t.IsDirectory []) {path : String}
    {start loc : List String} (hzero : '\x00' ∉ path.toList)
    (hlength : path.utf8ByteSize ≤ maxPathLength) (hne : path ≠ "")
    (hstart : t.Leads [] (t.start path) start) (h : t.Leads start (FilePath.names path) loc) :
    t.directory? path = some loc := by
  have hnil : t.Follows [] := trivial
  cases hlast : (FilePath.names path).reverse.dropWhile (· == "") with
  | nil =>
    have hblank : ∀ name ∈ FilePath.names path, name = "" := fun name hname =>
      beq_iff_eq.1 (List.dropWhile_eq_nil_iff.1 hlast name (List.mem_reverse.2 hname))
    have hroot' : t.start path = [] := by
      rw [FileTree.start, if_pos (isAbsolute_of_names hne hblank)]
    obtain rfl := h.eq_of_idle fun name hname => by rw [hblank name hname]; rfl
    rw [hroot'] at hstart
    obtain rfl := hstart.eq_of_idle fun name hname => by cases hname
    refine directory?_of_target hroot hnil ?_
    rw [target, if_neg (by simpa using hzero), if_neg (Nat.not_lt.2 hlength),
      if_neg (by simpa using hne), hroot']
    simp only [bind, Except.bind, descend, hlast]
  | cons last above =>
    by_cases hdots : last = "." ∨ last = ".."
    · obtain ⟨first, hfirst, hfollows, rfl⟩ := descend_of_leads hstart hnil rfl
      obtain ⟨trail, htrail, hfollows', rfl⟩ := descend_of_leads h hfollows rfl
      refine directory?_of_target hroot hfollows' ?_
      rw [target, if_neg (by simpa using hzero), if_neg (Nat.not_lt.2 hlength),
        if_neg (by simpa using hne), hfirst]
      simp only [bind, Except.bind, hlast]
      rw [if_pos hdots, htrail]
    · obtain ⟨hdot, hup⟩ := not_or.1 hdots
      obtain ⟨blanks, hnames, hblanks, hblank⟩ := exists_of_dropWhile_reverse hlast
      have hidle : FilePath.isIdle last = false := by simp [FilePath.isIdle, hblank, hdot]
      rw [hnames] at h
      obtain ⟨dir, habove, h⟩ := h.exists_of_append
      obtain ⟨trail, hfollows, rfl, htarget⟩ := exists_target_of_leads hzero hlength hnames hblanks
        hidle hup hstart habove
      cases h with
      | idle hidle' => rw [hidle] at hidle'; cases hidle'
      | up => exact absurd rfl hup
      | down _ _ hname hdirectory hrest =>
        obtain rfl := hrest.eq_of_idle fun name hname => by rw [hblanks name hname]; rfl
        obtain ⟨_, hnode, entries, rfl⟩ := hdirectory
        rw [directory?, find, htarget]
        simp only [bind, Except.bind]
        rw [entry_eq hfollows hname, show t.node? _ = _ from hnode]

end RoutineParams.FileTree
