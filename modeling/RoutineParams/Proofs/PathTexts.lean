import RoutineParams.Proofs.Trails

/-!
# Paths as texts

A path is read as the names between its slashes. Names without slashes are read from the text that
they make up, and two paths with a slash between them have the names of both.

    splitAt sep (sep.intercalate pieces) = pieces, for pieces without `sep`    (splitAt_intercalate)
    names (path/path') = names path ++ names path'                                  (names_append)
-/

namespace RoutineParams.FileTree

theorem splitFrom_of_not_mem {sep : Char} {piece s : List Char} (h : sep ∉ s) :
    splitFrom sep piece s = [piece.reverse ++ s] := by
  induction s generalizing piece with
  | nil => rw [splitFrom, List.append_nil]
  | cons c s ih =>
    rw [splitFrom, if_neg (Ne.symm (List.ne_of_not_mem_cons h)),
      ih (List.not_mem_of_not_mem_cons h), List.reverse_cons, List.append_assoc]
    rfl

theorem splitFrom_append {sep : Char} {piece a : List Char} (h : sep ∉ a) (s : List Char) :
    splitFrom sep piece (a ++ sep :: s) = (piece.reverse ++ a) :: splitAt sep s := by
  induction a generalizing piece with
  | nil =>
    rw [List.nil_append, splitFrom, if_pos rfl, List.append_nil]
    rfl
  | cons c a ih =>
    rw [List.cons_append, splitFrom, if_neg (Ne.symm (List.ne_of_not_mem_cons h)),
      ih (List.not_mem_of_not_mem_cons h), List.reverse_cons, List.append_assoc]
    rfl

/-- Pieces that are written with separators between them are split again. -/
theorem splitAt_intercalate {sep : Char} {pieces : List (List Char)} (hne : pieces ≠ [])
    (h : ∀ piece ∈ pieces, sep ∉ piece) :
    splitAt sep ([sep].intercalate pieces) = pieces := by
  induction pieces with
  | nil => exact absurd rfl hne
  | cons piece pieces ih =>
    have hpiece := h piece List.mem_cons_self
    cases pieces with
    | nil =>
      rw [List.intercalate_singleton, splitAt, splitFrom_of_not_mem hpiece]
      rfl
    | cons next pieces =>
      rw [List.intercalate_cons_cons, List.append_assoc, List.singleton_append, splitAt,
        splitFrom_append hpiece, ih (by simp) fun p hp => h p (List.mem_cons_of_mem _ hp)]
      rfl

theorem not_mem_intercalate {c sep : Char} {pieces : List (List Char)} (hsep : c ≠ sep)
    (h : ∀ piece ∈ pieces, c ∉ piece) : c ∉ [sep].intercalate pieces := by
  induction pieces with
  | nil => simp
  | cons piece pieces ih =>
    have hpiece := h piece List.mem_cons_self
    cases pieces with
    | nil => rwa [List.intercalate_singleton]
    | cons next pieces =>
      have hmore := ih fun p hp => h p (List.mem_cons_of_mem _ hp)
      rw [List.intercalate_cons_cons]
      simp [hpiece, hsep, hmore]

/-- The pieces of a text are parts of it without separators. -/
theorem of_mem_splitFrom {sep : Char} {piece s : List Char} (hpiece : sep ∉ piece)
    {p : List Char} (hp : p ∈ splitFrom sep piece s) :
    sep ∉ p ∧ ∀ c ∈ p, c ∈ piece ∨ c ∈ s := by
  induction s generalizing piece with
  | nil =>
    obtain rfl := List.mem_singleton.1 hp
    exact ⟨by simpa using hpiece, fun c hc => Or.inl (List.mem_reverse.1 hc)⟩
  | cons d s ih =>
    rw [splitFrom] at hp
    split at hp
    · rcases List.mem_cons.1 hp with rfl | hp
      · exact ⟨by simpa using hpiece, fun c hc => Or.inl (List.mem_reverse.1 hc)⟩
      · obtain ⟨hsep, hsub⟩ := ih List.not_mem_nil hp
        refine ⟨hsep, fun c hc => Or.inr (List.mem_cons_of_mem _ ?_)⟩
        exact (hsub c hc).resolve_left List.not_mem_nil
    · rename_i hd
      obtain ⟨hsep, hsub⟩ := ih (List.not_mem_cons_of_ne_of_not_mem (Ne.symm hd) hpiece) hp
      refine ⟨hsep, fun c hc => ?_⟩
      rcases hsub c hc with hc | hc
      · rcases List.mem_cons.1 hc with rfl | hc
        · exact Or.inr List.mem_cons_self
        · exact Or.inl hc
      · exact Or.inr (List.mem_cons_of_mem _ hc)

theorem splitFrom_append_sep (sep : Char) (piece a s : List Char) :
    splitFrom sep piece (a ++ sep :: s) = splitFrom sep piece a ++ splitAt sep s := by
  induction a generalizing piece with
  | nil => simp [splitFrom, splitAt]
  | cons c a ih =>
    rw [List.cons_append, splitFrom, splitFrom]
    split
    · rw [ih]
      rfl
    · exact ih _

/-- The names of two paths with a slash between them. -/
theorem names_append (path path' : String) :
    FilePath.names (path ++ "/" ++ path') = FilePath.names path ++ FilePath.names path' := by
  have hlist : (path ++ "/" ++ path').toList = path.toList ++ '/' :: path'.toList := by simp
  rw [FilePath.names, hlist, splitAt, splitFrom_append_sep, List.map_append]
  rfl

/-- A path of slashes starts at the root. -/
theorem isAbsolute_of_names {path : String} (hne : path ≠ "")
    (h : ∀ name ∈ FilePath.names path, name = "") : FilePath.isAbsolute path = true := by
  by_cases hslash : '/' ∈ path.toList
  · obtain ⟨a, b, hlist, ha⟩ := List.eq_append_cons_of_mem hslash
    have hfirst : String.ofList a = "" := by
      refine h _ ?_
      rw [FilePath.names, hlist, splitAt, splitFrom_append ha]
      exact List.mem_cons_self
    obtain rfl : a = [] := String.ofList_eq_empty_iff.1 hfirst
    rw [FilePath.isAbsolute, hlist]
    rfl
  · have hwhole : FilePath.names path = [path] := by
      rw [FilePath.names, splitAt, splitFrom_of_not_mem hslash]
      simp
    exact absurd (h path (by simp [hwhole])) hne

/-- The names of a path have no slash, and no zero where the path has none. -/
theorem of_mem_names {path : String} (hzero : '\x00' ∉ path.toList) :
    ∀ name ∈ FilePath.names path, '/' ∉ name.toList ∧ '\x00' ∉ name.toList := by
  intro name hname
  obtain ⟨piece, hpiece, rfl⟩ := List.mem_map.1 hname
  obtain ⟨hslash, hsub⟩ := of_mem_splitFrom List.not_mem_nil hpiece
  rw [String.toList_ofList]
  exact ⟨hslash, fun hc => hzero ((hsub _ hc).resolve_left List.not_mem_nil)⟩

theorem toList_pathText (path : List String) :
    (Database.pathText path).toList = '/' :: ['/'].intercalate (path.map String.toList) := by
  rw [Database.pathText, FilePath.join, String.toList_append, String.toList_intercalate]
  rfl

/-- The names of a path that is written as a text from the root. -/
theorem names_pathText {path : List String} (hne : path ≠ [])
    (h : ∀ name ∈ path, FilePath.LeadsDown name) :
    FilePath.names (Database.pathText path) = "" :: path := by
  have hslash : ∀ piece ∈ path.map String.toList, '/' ∉ piece := by
    intro piece hpiece
    obtain ⟨name, hname, rfl⟩ := List.mem_map.1 hpiece
    exact (h name hname).2.2
  rw [FilePath.names, toList_pathText]
  show List.map String.ofList ([] :: splitAt '/' _) = _
  rw [splitAt_intercalate (by simpa using hne) hslash, List.map_cons, List.map_map]
  simp [Function.comp_def]

theorem start_pathText (t : FileTree) (path : List String) :
    t.start (Database.pathText path) = [] := by
  rw [start, FilePath.isAbsolute, toList_pathText]
  rfl

end RoutineParams.FileTree
