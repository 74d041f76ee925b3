import RoutineParams.Proofs.FileLists
import RoutineParams.Proofs.Holdings

/-!
# Scripts that lie elsewhere

While a database is used its file and those beside it come and go. All other files stay where they
are, in the order in which they are listed. So a scan finds the same routines again if none of the
files it reads is the database's own: what the database has become is no text, and a file beside it
that is still there is the one that was not admitted before.

    t.IsSound → Touches dir last t t' → t'.IsSound                              (Touches.isSound)
    the routines of the admitted files, after the database was used     (routinesOfFiles_admitted)
-/

namespace RoutineParams

/-! ## Definitions -/

/-- A scan of `dir` reads the file at `path`. -/
def FileTree.Discovers (t : FileTree) (dir : String) (c : Config) (path : List String) : Prop :=
  ∃ a p, Admission.ofConfig c = .ok a ∧ t.directory? dir = some p ∧ ∃ x ∈ t.admitted a p,
    p.map .text ++ x.1 = path.map .text

/-- A scan of `dir` reads neither the file at `loc` nor one beside it. -/
def FileTree.ScansApart (t : FileTree) (dir : String) (c : Config) (loc : List String) : Prop :=
  ¬t.Discovers dir c loc ∧ ∀ beside : Companion, ¬t.Discovers dir c (beside.path loc)

variable {t t' : FileTree} {dir : List String} {last name : String}

/-! ## Lemmas: trees in which a database was used -/

/-- The name of a file beside another one leads down as that does. -/
theorem FilePath.LeadsDown.append_suffix (h : FilePath.LeadsDown last) (c : Companion) :
    FilePath.LeadsDown (last ++ c.suffix) := by
  have hlength : 2 < (last ++ c.suffix).length := by
    have hsuffix : 2 < c.suffix.length := by cases c <;> decide
    rw [String.length_append]
    omega
  have hne : ∀ short : String, short.length ≤ 2 → last ++ c.suffix ≠ short := by
    rintro short hshort rfl
    omega
  refine ⟨?_, hne _ (by decide), ?_⟩
  · rw [FilePath.isIdle, Bool.or_eq_false_iff, beq_eq_false_iff_ne, beq_eq_false_iff_ne]
    exact ⟨hne _ (by decide), hne _ (by decide)⟩
  · rw [String.toList_append, List.mem_append, not_or]
    exact ⟨h.2.2, by cases c <;> decide⟩

theorem IsOwn.leadsDown (h : IsOwn last name) (hlast : FilePath.LeadsDown last) :
    FilePath.LeadsDown name := by
  rcases h with rfl | ⟨c, rfl⟩
  · exact hlast
  · exact hlast.append_suffix c

namespace Touches

/-- The path is none of those where files come and go, and leads through none of them. -/
def Spares (t : FileTree) (dir : List String) (last : String) (path : List FileName) : Prop :=
  ∀ name, IsOwn last name → ¬t.IsDirectory (dir ++ [name]) → ¬(dir ++ [name]).map .text <+: path

theorem isSound (h : Touches dir last t t') (ht : t.IsSound)
    (hnames : ∀ name ∈ dir ++ [last], FilePath.LeadsDown name) : t'.IsSound := by
  induction h with
  | refl => exact ht
  | @put t' name content _ hown _ ih =>
    refine Node.isSound_put ih (.file content) fun other hother => ?_
    rcases List.mem_append.1 hother with hdir | hname
    · exact hnames other (List.mem_append_left _ hdir)
    · obtain rfl := List.mem_singleton.1 hname
      exact hown.leadsDown (hnames last (by simp))
  | erase _ _ _ ih => exact Node.isSound_erase ih _

open Classical in
/-- All other files of the tree stay as they are listed. -/
theorem filter_files (h : Touches dir last t t') (hdir : t.IsDirectory dir) :
    t'.root.files.filter (fun x => decide (Spares t dir last x.1)) =
      t.root.files.filter fun x => decide (Spares t dir last x.1) := by
  have hapart : ∀ name, IsOwn last name → ¬t.IsDirectory (dir ++ [name]) → ∀ n : Node,
      n.files.filter (fun x => decide (Spares t dir last x.1)) =
        (n.filesApart (dir ++ [name])).filter fun x => decide (Spares t dir last x.1) := by
    intro name hown hnot n
    rw [Node.filesApart, List.filter_filter]
    refine List.filter_congr fun x _ => ?_
    by_cases hspares : Spares t dir last x.1
    · rw [decide_eq_true hspares, decide_eq_false (hspares name hown hnot)]
      rfl
    · simp [hspares]
  induction h with
  | refl => rfl
  | @put t' name content h hown hnot ih =>
    have hnot' : ¬t.IsDirectory (dir ++ [name]) := fun hname => hnot (h.isDirectory hname)
    have hat : t'.root.IsDirectoryAt (dir ++ [name]).dropLast := by
      rw [List.dropLast_concat]
      exact h.isDirectory hdir
    rw [hapart name hown hnot', FileTree.put, Node.filesApart_put hat, ← hapart name hown hnot', ih]
  | @erase t' name h hown hnot ih =>
    have hnot' : ¬t.IsDirectory (dir ++ [name]) := fun hname => hnot (h.isDirectory hname)
    have hat : t'.root.IsDirectoryAt (dir ++ [name]).dropLast := by
      rw [List.dropLast_concat]
      exact h.isDirectory hdir
    rw [hapart name hown hnot', FileTree.erase, Node.filesApart_erase hat,
      ← hapart name hown hnot', ih]

open Classical in
/-- **The files elsewhere below a directory** stay as they are listed. -/
theorem filter_filesBelow (h : Touches dir last t t') (ht : t.IsSound) (ht' : t'.IsSound)
    (hdir : t.IsDirectory dir) {p : List String} (hp : t.IsDirectory p) :
    (t'.filesBelow p).filter (fun x => decide (Spares t dir last (p.map .text ++ x.1))) =
      (t.filesBelow p).filter fun x => decide (Spares t dir last (p.map .text ++ x.1)) := by
  have hlisted : ∀ u : FileTree, u.IsSound → u.IsDirectory p →
      ((u.filesBelow p).filter fun x => decide (Spares t dir last (p.map .text ++ x.1))).map
          (fun x => (p.map .text ++ x.1, x.2)) =
        (u.root.files.filter fun x => decide (Spares t dir last x.1)).filter
          fun x => decide (p.map .text <+: x.1) := by
    rintro u hu ⟨n, hn, hdirectory⟩
    rw [Node.filesBelow_eq hn hdirectory, List.filter_comm, Node.filter_files hu hn,
      List.filter_map]
    rfl
  have hinj : Function.Injective fun x : List FileName × Content => (p.map .text ++ x.1, x.2) := by
    rintro ⟨a, content⟩ ⟨b, content'⟩ heq
    obtain ⟨hpath, rfl⟩ := Prod.mk.inj heq
    obtain rfl : a = b := List.append_cancel_left hpath
    rfl
  refine List.map_injective_iff.2 hinj ?_
  rw [hlisted t' ht' (h.isDirectory hp), hlisted t ht hp, h.filter_files hdir]

end Touches

namespace FileTree

/-! ## Lemmas: directories in a tree with more of them -/

/-- **A path to a directory** leads there in every tree with more directories. -/
theorem directory?_mono (hmono : ∀ p, t.IsDirectory p → t'.IsDirectory p)
    (hroot : t'.IsDirectory []) (hhome : t'.home = t.home) {path : String} {p : List String}
    (h : t.directory? path = some p) : t'.directory? path = some p := by
  obtain ⟨entries, hfind⟩ := exists_find_of_directory? h
  obtain ⟨hzero, hlength, hne, start, hstart, hleads⟩ := leads_of_find hfind
  have hsame : t'.start path = t.start path := by rw [FileTree.start, FileTree.start, hhome]
  rw [← hsame] at hstart
  exact directory?_of_leads hroot hzero hlength hne (hstart.mono hmono) (hleads.mono hmono)

/-- What a path to a directory leads to is one. -/
theorem isDirectory_of_directory? (hroot : t.IsDirectory []) {src : String} {p : List String}
    (h : t.directory? src = some p) : t.IsDirectory p := by
  obtain ⟨entries, hfind⟩ := exists_find_of_directory? h
  obtain ⟨-, -, -, start, hstart, hleads⟩ := leads_of_find hfind
  exact hleads.isDirectory (hstart.isDirectory hroot)

end FileTree

/-! ## Lemmas: scripts -/

/-- A file is listed where it lies. -/
theorem FileTree.mem_filesBelow_of_node? {p names : List String} {content : Content}
    (hp : t.IsDirectory p) (h : t.node? (p ++ names) = some (.file content)) :
    (names.map .text, content) ∈ t.filesBelow p := by
  obtain ⟨n, hn, hdirectory⟩ := hp
  rw [FileTree.node?, Node.at?_append, hn, Option.bind_some] at h
  rw [Node.filesBelow_eq hn hdirectory]
  exact Node.mem_files_of_at? h

/-- What lies on the path of a file is a directory. -/
theorem FileTree.IsSound.isDirectory_of_mem (h : t.IsSound) {p q : List String}
    {x : List FileName × Content} (hx : x ∈ t.filesBelow p)
    (hq : q.map .text <+: p.map .text ++ x.1) (hne : q.map .text ≠ p.map .text ++ x.1) :
    t.IsDirectory q := by
  obtain ⟨n, hn, hdirectory⟩ := FileTree.isDirectory_of_mem_filesBelow hx
  rw [Node.filesBelow_eq hn hdirectory] at hx
  have hlisted : (p.map .text ++ x.1, x.2) ∈ t.root.files := by
    refine List.mem_of_mem_filter (p := fun y => decide (p.map .text <+: y.1)) ?_
    rw [Node.filter_files h hn]
    exact List.mem_map_of_mem hx
  exact Node.isDirectoryAt_of_mem_files h hlisted hq hne

/-- Names behind a path that make up a path are texts. -/
theorem exists_texts_of_append {p q : List String} {names : List FileName}
    (h : p.map .text ++ names = q.map .text) : ∃ rest, names = rest.map .text ∧ p ++ rest = q := by
  obtain ⟨p', rest, rfl, hp, rfl⟩ := List.map_eq_append_iff.1 h.symm
  obtain rfl := List.map_injective_iff.2 (fun _ _ => FileName.text.inj) hp
  exact ⟨rest, rfl, rfl⟩

/-- The routines of a file, if it is admitted. -/
def Admission.routinesOf (a : Admission) (x : List FileName × Content) : List Routine :=
  if a.admits (sourcePath x.1) x.2.size then (SourceFile.ofNames x).routines else []

theorem FileTree.mem_admitted_of_routinesOf {p : List String} {a : Admission}
    {x : List FileName × Content} (hx : x ∈ t.filesBelow p) (h : a.routinesOf x ≠ []) :
    x ∈ t.admitted a p := by
  refine FileTree.mem_admitted.2 ⟨hx, Classical.byContradiction fun hnot => h ?_⟩
  rw [Admission.routinesOf, if_neg hnot]

/-- The routines of the admitted files are those of the files that have any, in order. -/
theorem routinesOfFiles_admitted_eq (t : FileTree) (a : Admission) (p : List String) :
    routinesOfFiles ((t.admitted a p).map .ofNames) =
      (((t.filesBelow p).filter fun x => !(a.routinesOf x).isEmpty).mergeSort fun x y =>
        sourcePath x.1 ≤ sourcePath y.1).flatMap a.routinesOf := by
  have htrans : ∀ x y z : List FileName × Content, decide (sourcePath x.1 ≤ sourcePath y.1) →
      decide (sourcePath y.1 ≤ sourcePath z.1) → decide (sourcePath x.1 ≤ sourcePath z.1) := by
    intro x y z hxy hyz
    rw [decide_eq_true_eq] at hxy hyz ⊢
    exact String.le_trans hxy hyz
  have htotal : ∀ x y : List FileName × Content,
      decide (sourcePath x.1 ≤ sourcePath y.1) || decide (sourcePath y.1 ≤ sourcePath x.1) := by
    intro x y
    rw [Bool.or_eq_true, decide_eq_true_eq, decide_eq_true_eq]
    exact String.le_total _ _
  rw [mergeSort_filter htrans htotal, Node.flatMap_filter_of_nil fun x hx => by simpa using hx,
    FileTree.admitted_eq_filter, routinesOfFiles, List.flatMap_map]
  generalize (t.filesBelow p).mergeSort _ = xs
  induction xs with
  | nil => rfl
  | cons x xs ih =>
    rw [List.filter_cons, List.flatMap_cons, ← ih, Admission.routinesOf]
    split <;> simp

namespace Touches

/-- A file that is neither at the place nor beside it is spared. -/
theorem spares_of_mem {u : FileTree} (hu : u.IsSound) {p : List String}
    {x : List FileName × Content} (hx : x ∈ u.filesBelow p)
    (hnot : ∀ name, ¬t.IsDirectory (dir ++ [name]) → ¬u.IsDirectory (dir ++ [name]))
    (hne : p.map .text ++ x.1 ≠ (dir ++ [last]).map .text)
    (hbeside : ∀ c : Companion, p.map .text ++ x.1 ≠ (c.path (dir ++ [last])).map .text) :
    Spares t dir last (p.map .text ++ x.1) := by
  intro name hown hname hprefix
  refine hnot name hname (hu.isDirectory_of_mem hx hprefix fun heq => ?_)
  rcases hown with rfl | ⟨c, rfl⟩
  · exact hne heq.symm
  · exact hbeside c (by rw [Companion.path_append, heq])

/-- **A scan finds the same routines again** after a database was used whose files it does not
admit, where a file beside that is still there is as it was. -/
theorem routinesOfFiles_admitted (h : Touches dir last t t') (ht : t.IsSound) (ht' : t'.IsSound)
    (hdir : t.IsDirectory dir) {p : List String} (hp : t.IsDirectory p) (a : Admission)
    (hapart : ∀ x ∈ t.admitted a p, p.map .text ++ x.1 ≠ (dir ++ [last]).map .text ∧
      ∀ c : Companion, p.map .text ++ x.1 ≠ (c.path (dir ++ [last])).map .text)
    {file : DatabaseFile} (hfile : t'.node? (dir ++ [last]) = some (.file (.database file)))
    (hbeside : ∀ c : Companion, t'.node? (c.path (dir ++ [last])) =
      t.node? (c.path (dir ++ [last])) ∨ t'.node? (c.path (dir ++ [last])) = none) :
    routinesOfFiles ((t'.admitted a p).map .ofNames) =
      routinesOfFiles ((t.admitted a p).map .ofNames) := by
  classical
  have hspares : ∀ x ∈ t.filesBelow p, a.routinesOf x ≠ [] → Spares t dir last (p.map .text ++ x.1) := by
    intro x hx hroutines
    obtain ⟨hne, hne'⟩ := hapart x (FileTree.mem_admitted_of_routinesOf hx hroutines)
    exact spares_of_mem ht hx (fun _ hnot => hnot) hne hne'
  have hspares' : ∀ x ∈ t'.filesBelow p, a.routinesOf x ≠ [] →
      Spares t dir last (p.map .text ++ x.1) := by
    rintro ⟨names, content⟩ hx hroutines
    refine spares_of_mem ht' hx (fun _ hnot => h.not_isDirectory hnot) (fun heq => ?_)
      fun c heq => ?_
    · -- what the database has become is no text
      obtain ⟨names, rfl, hpath⟩ := exists_texts_of_append heq
      have hnode := ht'.node?_of_mem hx
      rw [hpath, hfile] at hnode
      cases hnode
      exact hroutines (by simp [Admission.routinesOf, SourceFile.ofNames, SourceFile.routines,
        Content.text?])
    · -- what still lies beside it lay there before
      obtain ⟨names, rfl, hpath⟩ := exists_texts_of_append heq
      have hnode := ht'.node?_of_mem hx
      rw [hpath] at hnode
      rcases hbeside c with hsame | hnone
      · rw [hsame, ← hpath] at hnode
        have hx := FileTree.mem_filesBelow_of_node? hp hnode
        exact (hapart _ (FileTree.mem_admitted_of_routinesOf hx hroutines)).2 c heq
      · cases hnode.symm.trans hnone
  have hmore : ∀ xs : List (List FileName × Content),
      (∀ x ∈ xs, a.routinesOf x ≠ [] → Spares t dir last (p.map .text ++ x.1)) →
      xs.filter (fun x => !(a.routinesOf x).isEmpty) =
        (xs.filter fun x => decide (Spares t dir last (p.map .text ++ x.1))).filter
          fun x => !(a.routinesOf x).isEmpty := by
    intro xs hxs
    rw [List.filter_filter]
    refine List.filter_congr fun x hx => ?_
    by_cases hroutines : a.routinesOf x = []
    · simp [hroutines]
    · simp [hxs x hx hroutines]
  rw [routinesOfFiles_admitted_eq, routinesOfFiles_admitted_eq, hmore _ hspares', hmore _ hspares,
    h.filter_filesBelow ht ht' hdir hp]

/-- **A scan of a directory** after a database was used finds the same routines again. -/
theorem sourceFiles (h : Touches dir last t t') (hproper : t.IsProper) (ht : t.IsSound)
    (hnames : ∀ name ∈ dir ++ [last], FilePath.LeadsDown name) (hdir : t.IsDirectory dir)
    {src : String} {c : Config} {files : List SourceFile}
    (hfiles : RoutineParams.sourceFiles src c t = .ok files)
    (hapart : t.ScansApart src c (dir ++ [last])) {file : DatabaseFile}
    (hfile : t'.node? (dir ++ [last]) = some (.file (.database file)))
    (hbeside : ∀ c : Companion, t'.node? (c.path (dir ++ [last])) =
      t.node? (c.path (dir ++ [last])) ∨ t'.node? (c.path (dir ++ [last])) = none) :
    ∃ files', RoutineParams.sourceFiles src c t' = .ok files' ∧
      routinesOfFiles files' = routinesOfFiles files := by
  obtain ⟨p, a, hsrc, ha, rfl⟩ := exists_of_sourceFiles hfiles
  have hp := FileTree.isDirectory_of_directory? hproper.root hsrc
  have hsrc' : t'.directory? src = some p :=
    FileTree.directory?_mono (fun _ => h.isDirectory) (h.isDirectory hproper.root) h.home hsrc
  refine ⟨_, sourceFiles_eq hsrc' ha, h.routinesOfFiles_admitted ht (h.isSound ht hnames) hdir hp a
    (fun x hx => ⟨fun heq => ?_, fun b heq => ?_⟩) hfile hbeside⟩
  · exact hapart.1 ⟨a, p, ha, hsrc, x, hx, heq⟩
  · exact hapart.2 b ⟨a, p, ha, hsrc, x, hx, heq⟩

end Touches

end RoutineParams
