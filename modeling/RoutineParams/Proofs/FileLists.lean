import RoutineParams.Proofs.Filters

/-!
# The files of a directory

The files below a node are told with their paths, in the order in which they are listed. Where
something is put or taken away, all files elsewhere stay in that order, and a tree that a file system
can hold stays one. In such a tree a file is found where it is listed, and what lies on its path is a
directory.

    (n.put new path).files and n.files have the same files elsewhere       (filesApart_put)
    n.IsSound → (n.put new path).IsSound                                       (isSound_put)
    the files below a path are those whose paths lead through it             (filter_files)
-/

namespace RoutineParams

/-- The files below a node and at it, with their paths from there. -/
def Node.files (n : Node) : List (List FileName × Content) :=
  (([], n) :: n.descendants).filterMap fun (path, node) =>
    match node with
    | .file content => some (path, content)
    | .directory _ => none

variable {t : FileTree} {path : List String} {name : String}

/-! ## Lemmas: the files of a node -/

namespace Node

variable {n m new : Node}

theorem files_directory (entries : List (FileName × Node)) :
    (directory entries).files =
      entries.flatMap fun e => e.2.files.map fun x => (e.1 :: x.1, x.2) := by
  have hentry : ∀ e : FileName × Node,
      ((([e.1], e.2) :: e.2.descendants.map fun x => (e.1 :: x.1, x.2)).filterMap
        fun (path, node) =>
          match node with
          | .file content => some (path, content)
          | .directory _ => none) = e.2.files.map fun x => (e.1 :: x.1, x.2) := by
    rintro ⟨name, n⟩
    cases n with
    | file content => rfl
    | directory entries =>
      simp only [files, List.filterMap_cons, List.filterMap_map, List.map_filterMap]
      congr 1
      funext ⟨path, node⟩
      cases node <;> rfl
  rw [files, List.filterMap_cons, descendants, entryDescendants_eq]
  simp only [List.filterMap_flatMap, hentry]

/-- The files below a directory are those of its node. -/
theorem filesBelow_eq {p : List String} (hn : t.node? p = some n) (hdirectory : n.IsDirectory) :
    t.filesBelow p = n.files := by
  obtain ⟨entries, rfl⟩ := hdirectory
  rw [FileTree.filesBelow, hn]
  rfl

/-- What one entry of a directory has on either side of a change, it has there in the directory. -/
theorem filter_flatMap_setEntry {β : Type} {fileName : FileName} {entries : List (FileName × Node)}
    {f : FileName × Node → List β} {p : β → Bool} (h : (f (fileName, m)).filter p =
      (entries.lookup fileName).elim [] fun below => (f (fileName, below)).filter p) :
    ((setEntry fileName m entries).flatMap f).filter p = (entries.flatMap f).filter p := by
  unfold setEntry
  split
  · rename_i hsome
    induction entries with
    | nil => cases hsome
    | cons e es ih =>
      obtain ⟨other, below⟩ := e
      rw [lookup_cons_eq] at h hsome
      rw [replaceEntry, List.flatMap_cons, List.filter_append]
      by_cases hother : other = fileName
      · subst hother
        rw [if_pos rfl] at h
        rw [if_pos rfl, List.flatMap_cons, List.filter_append, h, Option.elim_some]
      · rw [if_neg (Ne.symm hother)] at h hsome
        rw [if_neg hother, List.flatMap_cons, List.filter_append, ih h hsome]
  · rename_i hnone
    rw [Option.not_isSome_iff_eq_none] at hnone
    rw [hnone] at h
    rw [List.flatMap_cons, List.filter_append, h, Option.elim_none, List.nil_append]

/-- The files that do not lie at a path or below it. -/
def filesApart (n : Node) (path : List String) : List (List FileName × Content) :=
  n.files.filter fun x => !decide (path.map .text <+: x.1)

theorem filesApart_nil (n : Node) : n.filesApart [] = [] := by
  rw [filesApart, List.filter_eq_nil_iff]
  simp

/-- Files that do not lie at a path are told entry by entry. -/
theorem filter_files_below (n : Node) (name : String) (names : List String) :
    (n.files.map fun x => (.text name :: x.1, x.2)).filter
        (fun x => !decide ((name :: names).map FileName.text <+: x.1)) =
      (n.filesApart names).map fun x => (.text name :: x.1, x.2) := by
  rw [List.filter_map, filesApart]
  congr 2
  funext x
  simp [List.cons_prefix_cons]

/-- The way to a directory that goes on below an entry. -/
theorem exists_below {entries : List (FileName × Node)} {next : String} {names : List String}
    (h : (directory entries).IsDirectoryAt (name :: next :: names).dropLast) :
    ∃ below, entries.lookup (.text name) = some below ∧ below.IsDirectoryAt (next :: names).dropLast := by
  obtain ⟨m, hm, hdirectory⟩ := h
  rw [List.dropLast_cons_of_ne_nil (by simp), at?_cons] at hm
  obtain ⟨below, hbelow, hm⟩ := Option.bind_eq_some_iff.1 hm
  exact ⟨below, hbelow, m, hm, hdirectory⟩

theorem flatMap_filter_of_nil {α β : Type} {f : α → List β} {p : α → Bool}
    (h : ∀ a, p a = false → f a = []) (xs : List α) :
    (xs.filter p).flatMap f = xs.flatMap f := by
  induction xs with
  | nil => rfl
  | cons x xs ih =>
    rw [List.flatMap_cons, List.filter_cons]
    cases hx : p x with
    | true => rw [if_pos rfl, List.flatMap_cons, ih]
    | false => rw [if_neg (by simp), ih, h x hx, List.nil_append]

/-- **What is put in a directory** leaves all files elsewhere. -/
theorem filesApart_put (hdir : n.IsDirectoryAt path.dropLast) (new : Node) :
    (n.put new path).filesApart path = n.filesApart path := by
  induction path generalizing n with
  | nil => rw [filesApart_nil, filesApart_nil]
  | cons name names ih =>
    obtain ⟨_, hn, entries, rfl⟩ := IsDirectoryAt.of_append (p := []) hdir
    obtain rfl := Option.some.inj hn
    rw [put, Node.entries, filesApart, filesApart, files_directory, files_directory]
    refine filter_flatMap_setEntry ?_
    simp only [filter_files_below]
    cases names with
    | nil =>
      simp only [filesApart_nil, List.map_nil]
      cases entries.lookup (.text name) <;> rfl
    | cons next names =>
      obtain ⟨below, hbelow, hdir⟩ := exists_below hdir
      rw [hbelow, Option.elim_some, Option.getD_some, ih hdir]

/-- **What is taken away** leaves all files elsewhere. -/
theorem filesApart_erase (hdir : n.IsDirectoryAt path.dropLast) :
    (n.erase path).filesApart path = n.filesApart path := by
  induction path generalizing n with
  | nil => rfl
  | cons name names ih =>
    obtain ⟨_, hn, entries, rfl⟩ := IsDirectoryAt.of_append (p := []) hdir
    obtain rfl := Option.some.inj hn
    cases names with
    | nil =>
      rw [erase, Node.entries, filesApart, filesApart, files_directory, files_directory,
        List.filter_flatMap, List.filter_flatMap]
      refine flatMap_filter_of_nil (fun e he => ?_) _
      have hname : e.1 = .text name := by simpa using he
      simp only [hname]
      rw [filter_files_below, filesApart_nil, List.map_nil]
    | cons next names =>
      obtain ⟨below, hbelow, hdir⟩ := exists_below hdir
      rw [erase]
      · simp only [Node.entries, hbelow]
        rw [filesApart, filesApart, files_directory, files_directory]
        refine filter_flatMap_setEntry ?_
        simp only [filter_files_below]
        rw [hbelow, Option.elim_some, ih hdir]
      · simp

/-! ## Lemmas: trees that a file system can hold -/

theorem isSound_directory_iff {entries : List (FileName × Node)} :
    (directory entries).IsSound ↔ (entries.map Prod.fst).Nodup ∧
      (∀ e ∈ entries, e.1.IsSound) ∧ ∀ e ∈ entries, e.2.IsSound :=
  ⟨fun | .directory hnodup hnames hnodes => ⟨hnodup, hnames, hnodes⟩,
    fun ⟨hnodup, hnames, hnodes⟩ => .directory hnodup hnames hnodes⟩

theorem mem_of_lookup {fileName : FileName} {entries : List (FileName × Node)}
    (h : entries.lookup fileName = some m) : (fileName, m) ∈ entries := by
  obtain ⟨before, after, rfl, -⟩ := List.lookup_eq_some_iff.1 h
  simp

theorem not_mem_of_lookup {fileName : FileName} {entries : List (FileName × Node)}
    (h : entries.lookup fileName = none) : fileName ∉ entries.map Prod.fst := by
  rintro hmem
  obtain ⟨e, he, rfl⟩ := List.mem_map.1 hmem
  exact bne_iff_ne.1 (List.lookup_eq_none_iff.1 h e he) rfl

theorem map_fst_replaceEntry (fileName : FileName) (m : Node) (entries : List (FileName × Node)) :
    (replaceEntry fileName m entries).map Prod.fst = entries.map Prod.fst := by
  induction entries with
  | nil => rfl
  | cons e es ih =>
    rw [replaceEntry]
    split
    · rename_i hname
      rw [List.map_cons, List.map_cons, hname]
    · rw [List.map_cons, List.map_cons, ih]

theorem mem_replaceEntry {fileName : FileName} {entries : List (FileName × Node)}
    {e : FileName × Node} (h : e ∈ replaceEntry fileName m entries) : e.2 = m ∨ e ∈ entries := by
  induction entries with
  | nil => cases h
  | cons e' es ih =>
    rw [replaceEntry] at h
    split at h
    · rcases List.mem_cons.1 h with rfl | h
      · exact Or.inl rfl
      · exact Or.inr (List.mem_cons_of_mem _ h)
    · rcases List.mem_cons.1 h with rfl | h
      · exact Or.inr List.mem_cons_self
      · exact (ih h).imp_right (List.mem_cons_of_mem _)

theorem isSound_setEntry {fileName : FileName} {entries : List (FileName × Node)}
    (h : (directory entries).IsSound) (hname : fileName.IsSound) (hm : m.IsSound) :
    (directory (setEntry fileName m entries)).IsSound := by
  obtain ⟨hnodup, hnames, hnodes⟩ := isSound_directory_iff.1 h
  rw [isSound_directory_iff, setEntry]
  split
  · rw [← List.forall_mem_map (P := FileName.IsSound), map_fst_replaceEntry, List.forall_mem_map]
    refine ⟨hnodup, hnames, fun e he => ?_⟩
    rcases mem_replaceEntry he with rfl | he
    · exact hm
    · exact hnodes e he
  · rename_i hnone
    rw [Option.not_isSome_iff_eq_none] at hnone
    rw [List.map_cons, List.nodup_cons, List.forall_mem_cons, List.forall_mem_cons]
    exact ⟨⟨not_mem_of_lookup hnone, hnodup⟩, ⟨hname, hnames⟩, hm, hnodes⟩

theorem isSound_entries (h : n.IsSound) : (directory n.entries).IsSound := by
  cases h with
  | file content => exact isSound_directory_iff.2 (by simp [entries])
  | directory hnodup hnames hnodes => exact .directory hnodup hnames hnodes

theorem isSound_of_lookup {fileName : FileName} (h : n.IsSound)
    (hm : n.entries.lookup fileName = some m) : fileName.IsSound ∧ m.IsSound := by
  obtain ⟨-, hnames, hnodes⟩ := isSound_directory_iff.1 (isSound_entries h)
  exact ⟨hnames _ (mem_of_lookup hm), hnodes _ (mem_of_lookup hm)⟩

theorem isSound_put (h : n.IsSound) (hnew : new.IsSound)
    (hpath : ∀ name ∈ path, FilePath.LeadsDown name) : (n.put new path).IsSound := by
  induction path generalizing n with
  | nil => exact hnew
  | cons name names ih =>
    obtain ⟨hname, hnames⟩ := List.forall_mem_cons.1 hpath
    refine isSound_setEntry (isSound_entries h) hname (ih ?_ hnames)
    cases hm : n.entries.lookup (.text name) with
    | none => exact isSound_directory_iff.2 (by simp)
    | some m => exact (isSound_of_lookup h hm).2

theorem isSound_erase (h : n.IsSound) (path : List String) : (n.erase path).IsSound := by
  induction path generalizing n with
  | nil => exact h
  | cons name names ih =>
    cases names with
    | nil =>
      obtain ⟨hnodup, hnames, hnodes⟩ := isSound_directory_iff.1 (isSound_entries h)
      rw [erase, isSound_directory_iff]
      exact ⟨hnodup.sublist (List.filter_sublist.map _),
        fun e he => hnames e (List.mem_of_mem_filter he),
        fun e he => hnodes e (List.mem_of_mem_filter he)⟩
    | cons next names =>
      rw [erase]
      · split
        · rename_i below hbelow
          obtain ⟨hname, hsound⟩ := isSound_of_lookup h hbelow
          exact isSound_setEntry (isSound_entries h) hname (ih hsound)
        · exact h
      · simp

/-! ## Lemmas: where files are listed -/

/-- A file is listed where it lies. -/
theorem mem_files_of_at? {names : List String} {content : Content}
    (h : n.at? names = some (.file content)) : (names.map .text, content) ∈ n.files := by
  induction names generalizing n with
  | nil =>
    obtain rfl := Option.some.inj h
    exact List.mem_singleton_self _
  | cons name names ih =>
    rw [at?_cons] at h
    obtain ⟨below, hbelow, hat⟩ := Option.bind_eq_some_iff.1 h
    obtain ⟨entries, rfl⟩ := isDirectory_of_lookup hbelow
    rw [files_directory, List.mem_flatMap]
    exact ⟨(.text name, below), mem_of_lookup hbelow, List.mem_map.2 ⟨_, ih hat, rfl⟩⟩

/-- Where one entry alone counts. -/
theorem flatMap_of_lookup {β : Type} {fileName : FileName} {f : FileName × Node → List β}
    {entries : List (FileName × Node)} (hnodup : (entries.map Prod.fst).Nodup)
    (hm : entries.lookup fileName = some m)
    (h : ∀ e : FileName × Node, e.1 ≠ fileName → f e = []) :
    entries.flatMap f = f (fileName, m) := by
  obtain ⟨before, after, rfl, -⟩ := List.lookup_eq_some_iff.1 hm
  rw [List.map_append, List.map_cons, List.nodup_middle, List.nodup_cons, List.mem_append,
    not_or] at hnodup
  obtain ⟨⟨hbefore, hafter⟩, -⟩ := hnodup
  have hnone : ∀ es : List (FileName × Node), fileName ∉ es.map Prod.fst → es.flatMap f = [] :=
    fun es hes => List.flatMap_eq_nil_iff.2 fun e he =>
      h e fun heq => hes (heq ▸ List.mem_map_of_mem he)
  rw [List.flatMap_append, List.flatMap_cons, hnone _ hbefore, hnone _ hafter, List.nil_append,
    List.append_nil]

/-- The files below a path are those whose paths lead through it. -/
theorem filter_files (h : n.IsSound) {p : List String} (hm : n.at? p = some m) :
    n.files.filter (fun x => decide (p.map .text <+: x.1)) =
      m.files.map fun x => (p.map .text ++ x.1, x.2) := by
  induction p generalizing n with
  | nil =>
    obtain rfl := Option.some.inj hm
    simp
  | cons name p ih =>
    rw [at?_cons] at hm
    obtain ⟨below, hbelow, hat⟩ := Option.bind_eq_some_iff.1 hm
    have hsound := (isSound_of_lookup h hbelow).2
    obtain ⟨entries, rfl⟩ := isDirectory_of_lookup hbelow
    obtain ⟨hnodup, -⟩ := isSound_directory_iff.1 h
    have hentry : (below.files.map fun x => (.text name :: x.1, x.2)).filter
        (fun x => decide ((name :: p).map FileName.text <+: x.1)) =
          (below.files.filter fun x => decide (p.map .text <+: x.1)).map
            fun x => (.text name :: x.1, x.2) := by
      rw [List.filter_map]
      congr 2
      funext x
      simp [List.cons_prefix_cons]
    rw [files_directory, List.filter_flatMap, flatMap_of_lookup hnodup hbelow fun e he => ?_,
      hentry, ih hsound hat, List.map_map]
    · rfl
    · refine List.filter_eq_nil_iff.2 fun x hx hprefix => ?_
      obtain ⟨y, -, rfl⟩ := List.mem_map.1 hx
      exact he (List.cons_prefix_cons.1 (of_decide_eq_true hprefix)).1.symm

/-- What lies on the path of a file is a directory. -/
theorem isDirectoryAt_of_mem_files (h : n.IsSound) {x : List FileName × Content} (hx : x ∈ n.files)
    {q : List String} (hq : q.map .text <+: x.1) (hne : q.map .text ≠ x.1) :
    n.IsDirectoryAt q := by
  induction q generalizing n x with
  | nil =>
    refine ⟨n, rfl, ?_⟩
    cases n with
    | directory entries => exact ⟨entries, rfl⟩
    | file content =>
      obtain rfl := List.mem_singleton.1 hx
      exact absurd rfl hne
  | cons name q ih =>
    cases n with
    | file content =>
      obtain rfl := List.mem_singleton.1 hx
      cases List.prefix_nil.1 hq
    | directory entries =>
      rw [files_directory, List.mem_flatMap] at hx
      obtain ⟨⟨fileName, below⟩, he, hx⟩ := hx
      obtain ⟨y, hy, rfl⟩ := List.mem_map.1 hx
      obtain ⟨hnodup, -, hnodes⟩ := isSound_directory_iff.1 h
      rw [List.map_cons, List.cons_prefix_cons] at hq
      obtain ⟨rfl, hq⟩ := hq
      obtain ⟨m, hm, hdirectory⟩ := ih (hnodes _ he) hy hq fun heq => hne (by simp [heq])
      refine ⟨m, ?_, hdirectory⟩
      rw [at?_cons, Node.entries, lookup_of_mem hnodup he, Option.bind_some, hm]

end Node

end RoutineParams
