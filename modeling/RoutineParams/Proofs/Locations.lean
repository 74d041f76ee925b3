import RoutineParams.Proofs.Ways

/-!
# Where databases lie

The path of a database is resolved name by name, whether or not there is something. Where a way
leads to a file, that is its place; and names that were resolved in one tree lead to the same place
in every other.

    t.Way path p → Database.location? t path = some p                          (Way.location?_eq)
    Database.location? t path = some p → Database.location? f path = some q → p = q
                                                                             (location?_unique)
    t.Way path p → t'.Way path p, where directories of t are directories of t'          (Way.mono)
-/

namespace RoutineParams.FileTree

theorem maxPathLength_lt : Database.maxPathLength ≤ maxPathLength := by decide

/-- One name of the path of a database, if it leads down. -/
theorem resolve_cons {t : FileTree} {path names : List String} {name : String}
    (hidle : FilePath.isIdle name = false) (hup : name ≠ "..") :
    Database.resolve t path (name :: names) =
      if Database.maxPathLength ≤ (Database.pathText (path ++ [name])).utf8ByteSize then none
      else
        match t.find (Database.pathText (path ++ [name])) with
        | .ok _ | .error .notFound => Database.resolve t (path ++ [name]) names
        | .error _ => none := by
  rw [Database.resolve]
  exact (if_neg (by simp [hidle])).trans (if_neg hup)

/-- What is there can be resolved, if only it is short enough. -/
theorem resolve_of_node {t : FileTree} {path names : List String} {name : String} {n : Node}
    (hpath : ∀ x ∈ path ++ [name], FilePath.IsPlain x) (hdirectory : t.IsDirectory path)
    (hnode : t.node? (path ++ [name]) = some n)
    (hlength : (Database.pathText (path ++ [name])).utf8ByteSize < Database.maxPathLength) :
    Database.resolve t path (name :: names) = Database.resolve t (path ++ [name]) names := by
  obtain ⟨hidle, hup, -⟩ := hpath name (by simp)
  have hway : t.Way (Database.pathText (path ++ [name])) (path ++ [name]) :=
    way_pathText (by simp) hpath (by rwa [List.dropLast_concat])
      (Nat.le_trans (Nat.le_of_lt hlength) maxPathLength_lt)
  rw [resolve_cons hidle hup, if_neg (Nat.not_le.2 hlength), find_of_way hway hnode]

theorem of_resolve_cons {t : FileTree} {path names q : List String} {name : String}
    (hidle : FilePath.isIdle name = false) (hup : name ≠ "..")
    (h : Database.resolve t path (name :: names) = some q) :
    (Database.pathText (path ++ [name])).utf8ByteSize < Database.maxPathLength ∧
      Database.resolve t (path ++ [name]) names = some q := by
  rw [resolve_cons hidle hup] at h
  split at h
  · cases h
  · refine ⟨Nat.not_le.1 ‹_›, ?_⟩
    split at h
    · exact h
    · exact h
    · cases h

/-- The path to which names are resolved has only names that lead down. -/
theorem leadsDown_of_resolve {t : FileTree} {path names q : List String}
    (hpath : ∀ name ∈ path, FilePath.LeadsDown name) (hnames : ∀ name ∈ names, '/' ∉ name.toList)
    (h : Database.resolve t path names = some q) : ∀ name ∈ q, FilePath.LeadsDown name := by
  induction names generalizing path with
  | nil =>
    obtain rfl := Option.some.inj h
    exact hpath
  | cons name names ih =>
    have hnames' : ∀ x ∈ names, '/' ∉ x.toList := fun x hx => hnames x (List.mem_cons_of_mem _ hx)
    by_cases hidle : FilePath.isIdle name = true
    · rw [Database.resolve, if_pos hidle] at h
      exact ih hpath hnames' h
    by_cases hup : name = ".."
    · rw [Database.resolve, if_neg hidle, if_pos hup] at h
      exact ih (fun x hx => hpath x (List.dropLast_subset _ hx)) hnames' h
    · rw [Bool.not_eq_true] at hidle
      refine ih (fun x hx => ?_) hnames' (of_resolve_cons hidle hup h).2
      rcases List.mem_append.1 hx with hx | hx
      · exact hpath x hx
      · obtain rfl := List.mem_singleton.1 hx
        exact ⟨hidle, hup, hnames x List.mem_cons_self⟩

/-- Names are not resolved to different paths in two trees. -/
theorem resolve_unique {t f : FileTree} {path names p q : List String}
    (hp : Database.resolve t path names = some p) (hq : Database.resolve f path names = some q) :
    p = q := by
  induction names generalizing path with
  | nil => exact Option.some.inj (hp.symm.trans hq)
  | cons name names ih =>
    by_cases hidle : FilePath.isIdle name = true
    · rw [Database.resolve, if_pos hidle] at hp hq
      exact ih hp hq
    by_cases hup : name = ".."
    · rw [Database.resolve, if_neg hidle, if_pos hup] at hp hq
      exact ih hp hq
    · rw [Bool.not_eq_true] at hidle
      exact ih (of_resolve_cons hidle hup hp).2 (of_resolve_cons hidle hup hq).2

/-- Where a path leads that is resolved. -/
theorem of_location? {t : FileTree} {path : String} {loc : List String}
    (h : Database.location? t path = some loc) :
    loc ≠ [] ∧ Database.resolve t (t.start path) (FilePath.names path) = some loc := by
  unfold Database.location? at h
  obtain ⟨resolved, hresolve, h⟩ := Option.bind_eq_some_iff.1 h
  simp only at h
  split at h
  · cases h
  · rename_i hfits
    obtain rfl := Option.some.inj h
    exact ⟨fun hnil => hfits (Or.inl hnil), hresolve⟩

theorem location?_unique {t f : FileTree} (hhome : t.home = f.home) {path : String}
    {p q : List String} (hp : Database.location? t path = some p)
    (hq : Database.location? f path = some q) : p = q := by
  have hsame : t.start path = f.start path := by rw [FileTree.start, hhome]; rfl
  have hp := (of_location? hp).2
  rw [hsame] at hp
  exact resolve_unique hp (of_location? hq).2

theorem leadsDown_of_location? {t : FileTree} (hproper : t.IsProper) {path : String}
    {loc : List String} (h : Database.location? t path = some loc) :
    ∀ name ∈ loc, FilePath.LeadsDown name := by
  refine leadsDown_of_resolve (fun name hname => ?_) (fun name hname => ?_) (of_location? h).2
  · unfold start at hname
    split at hname
    · cases hname
    · exact (hproper.home name hname).leadsDown
  · obtain ⟨piece, hpiece, rfl⟩ := List.mem_map.1 hname
    rw [String.toList_ofList]
    exact (of_mem_splitFrom List.not_mem_nil hpiece).1

/-- **A database whose file can be made** lies where its path from the root leads. -/
theorem way_of_fileToWrite {t : FileTree} (hproper : t.IsProper) {path : String}
    {loc : List String} (hloc : Database.location? t path = some loc)
    {x : List String × Option Content} (h : t.fileToWrite (Database.pathText loc) = .ok x) :
    t.Way (Database.pathText loc) loc := by
  obtain ⟨loc', content?⟩ := x
  obtain ⟨hway, -⟩ := fileToWrite_spec h
  obtain rfl := hway.eq_of_pathText (of_location? hloc).1 (leadsDown_of_location? hproper hloc)
  exact hway

/-- Where names lead they can be resolved, if another tree tells that they are short enough. -/
theorem resolve_of_leads {t f : FileTree} {path names path' rest q : List String}
    (h : t.Leads path names path') (hpath : ∀ name ∈ path, FilePath.IsPlain name)
    (hnames : ∀ name ∈ names, '/' ∉ name.toList ∧ '\x00' ∉ name.toList)
    (hdirectory : t.IsDirectory path)
    (hother : Database.resolve f path (names ++ rest) = some q) :
    Database.resolve f path' rest = some q ∧
      Database.resolve t path (names ++ rest) = Database.resolve t path' rest := by
  induction h with
  | here => exact ⟨hother, rfl⟩
  | idle hidle _ ih =>
    rw [List.cons_append, Database.resolve, if_pos hidle] at hother ⊢
    exact ih hpath (fun name hname => hnames name (List.mem_cons_of_mem _ hname)) hdirectory hother
  | @up path _ _ hleads ih =>
    rw [List.cons_append, Database.resolve, if_neg (by decide), if_pos rfl] at hother ⊢
    have hleads' : t.Leads path [".."] path.dropLast := .up .here
    exact ih (fun name hname => hpath name (List.dropLast_subset _ hname))
      (fun name hname => hnames name (List.mem_cons_of_mem _ hname))
      (hleads'.isDirectory hdirectory) hother
  | @down path names path' name hidle hup hlength hnext _ ih =>
    obtain ⟨hslash, hzero⟩ := hnames name List.mem_cons_self
    have hpath' : ∀ x ∈ path ++ [name], FilePath.IsPlain x := by
      intro x hx
      rcases List.mem_append.1 hx with hx | hx
      · exact hpath x hx
      · obtain rfl := List.mem_singleton.1 hx
        exact ⟨hidle, hup, hslash, hzero, hlength⟩
    obtain ⟨hshort, hother'⟩ := of_resolve_cons hidle hup hother
    obtain ⟨hq, heq⟩ := ih hpath' (fun x hx => hnames x (List.mem_cons_of_mem _ hx)) hnext hother'
    obtain ⟨n, hnode, -⟩ := hnext
    exact ⟨hq, (resolve_of_node hpath' hdirectory hnode hshort).trans heq⟩

/-- The directory that a path starts from. -/
theorem Leads.start_eq {t : FileTree} (h : t.IsProper) {path : String} {start : List String}
    (hleads : t.Leads [] (t.start path) start) :
    start = t.start path ∧ ∀ name ∈ start, FilePath.IsPlain name := by
  have hplain : ∀ name ∈ t.start path, FilePath.IsPlain name := by
    unfold FileTree.start
    split
    · simp
    · exact h.home
  have hstart := hleads.eq_of_leadsDown fun name hname => (hplain name hname).leadsDown
  rw [List.nil_append] at hstart
  exact ⟨hstart, hstart ▸ hplain⟩

theorem Way.isPlain {t : FileTree} (hproper : t.IsProper) {path : String} {loc : List String}
    (h : t.Way path loc) : ∀ name ∈ loc, FilePath.IsPlain name := by
  obtain ⟨hzero, -, above, last, start, dir, hnames, hidle, hup, hlast, hstart, hleads, rfl⟩ := h
  have hmem := of_mem_names hzero
  rw [hnames] at hmem
  intro name hname
  rcases List.mem_append.1 hname with hname | hname
  · exact hleads.isPlain (hstart.start_eq hproper).2
      (fun x hx => hmem x (List.mem_append_left _ hx)) name hname
  · obtain rfl := List.mem_singleton.1 hname
    obtain ⟨hslash, hzero⟩ := hmem name (by simp)
    exact ⟨hidle, hup, hslash, hzero, hlast⟩

theorem Way.isDirectory {t : FileTree} (hroot : t.IsDirectory []) {path : String}
    {loc : List String} (h : t.Way path loc) : loc ≠ [] ∧ t.IsDirectory loc.dropLast := by
  obtain ⟨-, -, above, last, start, dir, -, -, -, -, hstart, hleads, rfl⟩ := h
  refine ⟨by simp, ?_⟩
  rw [List.dropLast_concat]
  exact hleads.isDirectory (hstart.isDirectory hroot)

theorem Way.mono {t t' : FileTree} (hmono : ∀ p, t.IsDirectory p → t'.IsDirectory p)
    (hhome : t'.home = t.home) {path : String} {loc : List String} (h : t.Way path loc) :
    t'.Way path loc := by
  obtain ⟨hzero, hlength, above, last, start, dir, hnames, hidle, hup, hlast, hstart, hleads,
    hloc⟩ := h
  refine ⟨hzero, hlength, above, last, start, dir, hnames, hidle, hup, hlast, ?_,
    hleads.mono hmono, hloc⟩
  unfold FileTree.start at hstart ⊢
  rw [hhome]
  exact hstart.mono hmono

/-- **A database lies where the path of its name leads**, if anything lies there, and if it can be
told from another tree where that is. -/
theorem Way.location?_eq {t f : FileTree} (hproper : t.IsProper) (hhome : t.home = f.home)
    {path : String} {loc loc' : List String} {n : Node} (h : t.Way path loc)
    (hnode : t.node? loc = some n) (hother : Database.location? f path = some loc') :
    loc' = loc ∧ Database.location? t path = some loc ∧
      (Database.pathText loc).utf8ByteSize ≤ maxPathLength := by
  have hplain := h.isPlain hproper
  obtain ⟨hzero, -, above, last, start, dir, hnames, hidle, hup, hlast, hstart, hleads, rfl⟩ := h
  obtain ⟨hstart', hstartPlain⟩ := hstart.start_eq hproper
  have hdirectory := hstart.isDirectory hproper.root
  have hmem := of_mem_names hzero
  rw [hnames] at hmem
  have hsame : t.start path = f.start path := by rw [FileTree.start, hhome]; rfl
  unfold Database.location? at hother ⊢
  obtain ⟨resolved, hresolve, hother⟩ := Option.bind_eq_some_iff.1 hother
  rw [hnames, ← hsame, ← hstart'] at hresolve
  obtain ⟨hlast', heq⟩ := resolve_of_leads hleads hstartPlain
    (fun x hx => hmem x (List.mem_append_left _ hx)) hdirectory hresolve
  obtain ⟨hshort, hlast'⟩ := of_resolve_cons hidle hup hlast'
  obtain rfl : dir ++ [last] = resolved := Option.some.inj hlast'
  have hresolved : Database.resolve t (t.start path) (FilePath.names path) =
      some (dir ++ [last]) := by
    rw [hnames, ← hstart', heq,
      resolve_of_node hplain (hleads.isDirectory hdirectory) hnode hshort]
    rfl
  have hlength : (Database.pathText (dir ++ [last])).utf8ByteSize ≤ maxPathLength :=
    Nat.le_trans (Nat.le_of_lt hshort) maxPathLength_lt
  rw [hresolved]
  simp only at hother
  split at hother
  · cases hother
  · rename_i hfits
    exact ⟨(Option.some.inj hother).symm, if_neg hfits, hlength⟩

end RoutineParams.FileTree
