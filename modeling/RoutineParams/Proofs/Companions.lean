import RoutineParams.Proofs.Alike

/-!
# Files beside a database file

The files beside a database file have names of their own in its directory, so what happens to one of
them is not seen at the others. While a database is opened or changed its file is written and those
beside it come and go, but never where there is a directory, and no other directory is touched.

    Alters canLog dir last t t' → every directory of t is one of t'         (Alters.isDirectory)
    a file beside that is not made stays or goes                           (Alters.node?_beside)
-/

namespace RoutineParams

/-! ## Files beside -/

theorem Companion.path_append (c : Companion) (dir : List String) (last : String) :
    c.path (dir ++ [last]) = dir ++ [last ++ c.suffix] := by
  rw [Companion.path, List.dropLast_concat, List.getLast?_concat]
  rfl

theorem Companion.append_suffix_ne (c : Companion) (last : String) : last ++ c.suffix ≠ last := by
  intro h
  have hlength := congrArg String.length h
  rw [String.length_append] at hlength
  have hpos : 0 < c.suffix.length := by cases c <;> decide
  omega

/-- Files beside a file have different names. -/
theorem Companion.append_suffix_inj {c c' : Companion} (last : String) (h : c ≠ c') :
    last ++ c.suffix ≠ last ++ c'.suffix := by
  intro heq
  have hlist := congrArg String.toList heq
  rw [String.toList_append, String.toList_append] at hlist
  have hsuffix := String.toList_inj.1 (List.append_cancel_left hlist)
  cases c <;> cases c' <;> first | exact h rfl | exact absurd hsuffix (by decide)

namespace FileTree

theorem node?_put_self (t : FileTree) (path : List String) (n : Node) :
    (t.put path n).node? path = some n := Node.at?_put_self t.root n path

/-- Neither of two names in a directory leads through the other. -/
theorem not_prefix_of_ne {dir : List String} {name other : String} (h : name ≠ other) :
    ¬dir ++ [name] <+: dir ++ [other] := by
  rw [List.prefix_append_right_inj]
  simpa [List.cons_prefix_cons] using h

theorem node?_put_of_ne (t : FileTree) {dir : List String} {name other : String}
    (h : name ≠ other) (n : Node) :
    (t.put (dir ++ [name]) n).node? (dir ++ [other]) = t.node? (dir ++ [other]) :=
  Node.at?_put_of_parts (not_prefix_of_ne h) (not_prefix_of_ne h.symm) t.root n

theorem node?_erase_self (t : FileTree) (dir : List String) (name : String) :
    (t.erase (dir ++ [name])).node? (dir ++ [name]) = none :=
  Node.at?_erase_self t.root (by simp)

theorem node?_erase_of_ne (t : FileTree) {dir : List String} {name other : String}
    (h : name ≠ other) :
    (t.erase (dir ++ [name])).node? (dir ++ [other]) = t.node? (dir ++ [other]) :=
  Node.at?_erase_of_parts (not_prefix_of_ne h) (not_prefix_of_ne h.symm) t.root

theorem not_isDirectory_of_none {t : FileTree} {path : List String} (h : t.node? path = none) :
    ¬t.IsDirectory path := by
  rintro ⟨n, hn, -⟩
  cases hn.symm.trans h

theorem not_isDirectory_of_file {t : FileTree} {path : List String} {content : Content}
    (h : t.node? path = some (.file content)) : ¬t.IsDirectory path := by
  rintro ⟨n, hn, entries, rfl⟩
  cases hn.symm.trans h

theorem not_isDirectory_put (t : FileTree) {dir : List String} {name other : String}
    (content : Content) (h : ¬t.IsDirectory (dir ++ [other])) :
    ¬(t.put (dir ++ [name]) (.file content)).IsDirectory (dir ++ [other]) := by
  by_cases hname : name = other
  · subst hname
    exact not_isDirectory_of_file (node?_put_self t _ _)
  · rintro ⟨n, hn, hdirectory⟩
    have hsame : (t.put (dir ++ [name]) (.file content)).node? (dir ++ [other]) =
        t.node? (dir ++ [other]) := node?_put_of_ne t hname _
    exact h ⟨n, hsame.symm.trans hn, hdirectory⟩

theorem not_isDirectory_erase (t : FileTree) {dir : List String} {name other : String}
    (h : ¬t.IsDirectory (dir ++ [other])) :
    ¬(t.erase (dir ++ [name])).IsDirectory (dir ++ [other]) := by
  by_cases hname : name = other
  · subst hname
    exact not_isDirectory_of_none (node?_erase_self t _ _)
  · rintro ⟨n, hn, hdirectory⟩
    have hsame : (t.erase (dir ++ [name])).node? (dir ++ [other]) = t.node? (dir ++ [other]) :=
      node?_erase_of_ne t hname
    exact h ⟨n, hsame.symm.trans hn, hdirectory⟩

theorem beside_eq_directory_iff (t : FileTree) (path : List String) (c : Companion) :
    t.beside path c = .directory ↔ t.IsDirectory (c.path path) := by
  unfold beside IsDirectory Node.IsDirectoryAt
  show _ ↔ ∃ m, t.node? (c.path path) = some m ∧ m.IsDirectory
  cases hnode : t.node? (c.path path) with
  | none => simp
  | some n =>
    cases n with
    | directory entries => exact ⟨fun _ => ⟨_, rfl, entries, rfl⟩, fun _ => rfl⟩
    | file content =>
      simp only [Option.some.injEq, exists_eq_left']
      constructor
      · intro h
        cases hfirst : content.toBytes[0]? <;> simp [hfirst] at h
      · rintro ⟨entries, h⟩
        cases h

theorem beside_of_none {t : FileTree} {path : List String} {c : Companion}
    (h : t.node? (c.path path) = none) : t.beside path c = .nothing := by
  rw [beside, h]

theorem beside_congr {t t' : FileTree} {path : List String} {c : Companion}
    (h : t'.node? (c.path path) = t.node? (c.path path)) : t'.beside path c = t.beside path c := by
  rw [beside, beside, h]

variable {dir : List String} {last : String}

theorem node?_beside_put (t : FileTree) (c : Companion) (n : Node) :
    (t.put (dir ++ [last]) n).node? (c.path (dir ++ [last])) =
      t.node? (c.path (dir ++ [last])) := by
  rw [Companion.path_append]
  exact node?_put_of_ne t (c.append_suffix_ne last).symm n

theorem node?_eraseBeside (t : FileTree) (c : Companion) :
    (t.eraseBeside (dir ++ [last]) c).node? (dir ++ [last]) = t.node? (dir ++ [last]) := by
  unfold eraseBeside
  split
  · rfl
  · rw [Companion.path_append]
    exact node?_erase_of_ne t (c.append_suffix_ne last)

theorem node?_eraseBeside_self {t : FileTree} {c : Companion}
    (h : ¬t.IsDirectory (c.path (dir ++ [last]))) :
    (t.eraseBeside (dir ++ [last]) c).node? (c.path (dir ++ [last])) = none := by
  rw [← beside_eq_directory_iff] at h
  rw [eraseBeside, if_neg h, Companion.path_append]
  exact node?_erase_self t dir _

theorem node?_eraseBeside_of_ne (t : FileTree) {c c' : Companion} (h : c ≠ c') :
    (t.eraseBeside (dir ++ [last]) c).node? (c'.path (dir ++ [last])) =
      t.node? (c'.path (dir ++ [last])) := by
  unfold eraseBeside
  split
  · rfl
  · rw [Companion.path_append, Companion.path_append]
    exact node?_erase_of_ne t (Companion.append_suffix_inj last h)

/-- What is not there need not be removed. -/
theorem eraseBeside_of_none {t : FileTree} {c : Companion} {n : Node}
    (hnode : t.node? (dir ++ [last]) = some n) (h : t.node? (c.path (dir ++ [last])) = none) :
    t.eraseBeside (dir ++ [last]) c = t := by
  have hdirectory : t.root.IsDirectoryAt dir := by
    rw [node?, Node.at?_append_singleton] at hnode
    obtain ⟨m, hm, hlookup⟩ := Option.bind_eq_some_iff.1 hnode
    exact ⟨m, hm, Node.isDirectory_of_lookup hlookup⟩
  have hbeside : t.beside (dir ++ [last]) c ≠ .directory := by rw [beside_of_none h]; simp
  rw [Companion.path_append] at h
  rw [eraseBeside, if_neg hbeside, Companion.path_append, erase,
    Node.erase_of_at? hdirectory h]

end FileTree

/-! ## Changes beside a file -/

/-- The file `last` in the directory `dir` is written, and the files beside it come and go where
there is no directory. A log is made only if there may be one. -/
inductive Alters (canLog : Bool) (dir : List String) (last : String) (t : FileTree) :
    FileTree → Prop
  | refl : Alters canLog dir last t t
  | write {t' : FileTree} (content : Content) : Alters canLog dir last t t' →
      Alters canLog dir last t (t'.put (dir ++ [last]) (.file content))
  | makeLog {t' : FileTree} (content : Content) : Alters canLog dir last t t' → canLog = true →
      ¬t'.IsDirectory (dir ++ [last ++ Companion.log.suffix]) →
      Alters canLog dir last t (t'.put (dir ++ [last ++ Companion.log.suffix]) (.file content))
  | erase {t' : FileTree} (c : Companion) : Alters canLog dir last t t' →
      ¬t'.IsDirectory (dir ++ [last ++ c.suffix]) →
      Alters canLog dir last t (t'.erase (dir ++ [last ++ c.suffix]))

namespace Alters

variable {canLog : Bool} {dir : List String} {last : String} {t t' t'' : FileTree}

theorem trans (h : Alters canLog dir last t t') (h' : Alters canLog dir last t' t'') :
    Alters canLog dir last t t'' := by
  induction h' with
  | refl => exact h
  | write content _ ih => exact .write content ih
  | makeLog content _ hcan hnot ih => exact .makeLog content ih hcan hnot
  | erase c _ hnot ih => exact .erase c ih hnot

theorem home (h : Alters canLog dir last t t') : t'.home = t.home := by
  induction h with
  | refl => rfl
  | write _ _ ih => exact ih
  | makeLog _ _ _ _ ih => exact ih
  | erase _ _ _ ih => exact ih

/-- No directory is made in the directory. -/
theorem not_isDirectory (h : Alters canLog dir last t t') {name : String}
    (hname : ¬t.IsDirectory (dir ++ [name])) : ¬t'.IsDirectory (dir ++ [name]) := by
  induction h with
  | refl => exact hname
  | write content _ ih => exact FileTree.not_isDirectory_put _ content ih
  | makeLog content _ _ _ ih => exact FileTree.not_isDirectory_put _ content ih
  | erase _ _ _ ih => exact FileTree.not_isDirectory_erase _ ih

/-- All directories stay, if the file is none. -/
theorem isDirectory (h : Alters canLog dir last t t') (hlast : ¬t.IsDirectory (dir ++ [last]))
    {path : List String} (hpath : t.IsDirectory path) : t'.IsDirectory path := by
  induction h with
  | refl => exact hpath
  | write content h ih => exact Node.isDirectoryAt_put_of_not (not_isDirectory h hlast) ih _
  | makeLog content _ _ hnot ih => exact Node.isDirectoryAt_put_of_not hnot ih _
  | erase _ _ hnot ih => exact Node.isDirectoryAt_erase_of_not hnot ih

theorem isProper (h : Alters canLog dir last t t') (ht : t.IsProper) : t'.IsProper := by
  refine ⟨?_, h.home ▸ ht.home⟩
  induction h with
  | refl => exact ht.root
  | write content _ _ => exact Node.isDirectoryAt_put_of_prefix List.nil_prefix (by simp) _ _
  | makeLog content _ _ _ _ => exact Node.isDirectoryAt_put_of_prefix List.nil_prefix (by simp) _ _
  | erase _ _ hnot ih => exact Node.isDirectoryAt_erase_of_not hnot ih

/-- On ways that part from the directory nothing changes. -/
theorem node?_of_parts (h : Alters canLog dir last t t') {path : List String}
    (hpath : ¬dir <+: path) (hpath' : ¬path <+: dir) : t'.node? path = t.node? path := by
  have hparts : ∀ name, ¬dir ++ [name] <+: path ∧ ¬path <+: dir ++ [name] := by
    intro name
    refine ⟨fun hprefix => hpath ((List.prefix_append dir [name]).trans hprefix), fun hprefix => ?_⟩
    rcases List.prefix_concat_iff.1 hprefix with rfl | hprefix
    · exact hpath (List.prefix_append dir [name])
    · exact hpath' hprefix
  induction h with
  | refl => rfl
  | write _ _ ih => exact (Node.at?_put_of_parts (hparts _).1 (hparts _).2 _ _).trans ih
  | makeLog _ _ _ _ ih => exact (Node.at?_put_of_parts (hparts _).1 (hparts _).2 _ _).trans ih
  | erase _ _ _ ih => exact (Node.at?_erase_of_parts (hparts _).1 (hparts _).2 _).trans ih

/-- No directory comes to lie beside the file. -/
theorem not_isDirectory_beside (h : Alters canLog dir last t t') {c : Companion}
    (hc : ¬t.IsDirectory (c.path (dir ++ [last]))) : ¬t'.IsDirectory (c.path (dir ++ [last])) := by
  rw [Companion.path_append] at hc ⊢
  exact h.not_isDirectory hc

theorem isDirectory_beside_iff (h : Alters canLog dir last t t')
    (hlast : ¬t.IsDirectory (dir ++ [last])) (c : Companion) :
    t'.IsDirectory (c.path (dir ++ [last])) ↔ t.IsDirectory (c.path (dir ++ [last])) :=
  ⟨fun h' => Classical.byContradiction fun hnot => h.not_isDirectory_beside hnot h',
    h.isDirectory hlast⟩

/-- A file beside that is not made stays or goes. -/
theorem node?_beside (h : Alters canLog dir last t t') {c : Companion}
    (hc : c = .log → canLog = false) :
    t'.node? (c.path (dir ++ [last])) = t.node? (c.path (dir ++ [last])) ∨
      t'.node? (c.path (dir ++ [last])) = none := by
  rw [Companion.path_append]
  induction h with
  | refl => exact Or.inl rfl
  | write content _ ih =>
    rw [FileTree.node?_put_of_ne _ (c.append_suffix_ne last).symm]
    exact ih
  | makeLog content _ hcan _ ih =>
    have hne : Companion.log ≠ c := by
      rintro rfl
      rw [hc rfl] at hcan
      cases hcan
    rw [FileTree.node?_put_of_ne _ (Companion.append_suffix_inj last hne)]
    exact ih
  | erase c' _ _ ih =>
    by_cases hne : c' = c
    · subst hne
      exact Or.inr (FileTree.node?_erase_self _ _ _)
    · rw [FileTree.node?_erase_of_ne _ (Companion.append_suffix_inj last hne)]
      exact ih

theorem eraseBeside (t : FileTree) (c : Companion) :
    Alters canLog dir last t (t.eraseBeside (dir ++ [last]) c) := by
  unfold FileTree.eraseBeside
  split
  · exact .refl
  · rename_i hnot
    rw [FileTree.beside_eq_directory_iff] at hnot
    rw [Companion.path_append] at hnot ⊢
    exact .erase c .refl hnot

end Alters

end RoutineParams
