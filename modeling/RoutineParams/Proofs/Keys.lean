import RoutineParams.Discovery
import RoutineParams.Proofs.ByteOrder
import RoutineParams.Proofs.Locations
import RoutineParams.Proofs.SoundTrees

/-!
# Keys of routines

The number of a routine is drawn from a key, which the path of its script and the place of its batch
make up. Two files get the same path where a backslash in one stands for a slash in the other, or
where bytes that are no text show alike, and these twins are all that shares a path, or a key.

    sourcePath p = sourcePath q → p = q for plain names                      (sourcePath_inj)
    routineKey p i = routineKey q j ↔ p = q ∧ i = j                          (routineKey_inj)
    t.IsSound → the scripts below a directory are in the order of their bytes, and their routines
      have different keys, but for those of twins                     (sourceFiles_keys_apart)
-/

namespace RoutineParams

/-! ## Definitions -/

/-- A name that a path has as it is: a text without backslashes. -/
def FileName.IsPlain : FileName → Prop
  | text name => '\\' ∉ name.toList
  | bytes _ _ => False

/-- The names of different files that get the same path. Not all of them are plain. -/
def AreTwins (p q : List FileName) : Prop :=
  p ≠ q ∧ sourcePath p = sourcePath q ∧ ¬∀ name ∈ p ++ q, name.IsPlain

/-- A file below a directory as a source of routines. -/
def SourceFile.ofNames (x : List FileName × Content) : SourceFile := ⟨sourcePath x.1, x.2⟩

/-- The files below a directory that are admitted, in the order of their paths. -/
def FileTree.admitted (t : FileTree) (a : Admission) (directory : List String) :
    List (List FileName × Content) :=
  ((t.filesBelow directory).filter fun x => a.admits (sourcePath x.1) x.2.size).mergeSort
    fun x y => sourcePath x.1 ≤ sourcePath y.1

/-- The number that is drawn from a key. -/
def idOfKey (key : String) : ObjectId :=
  Int64.ofNat ((Md5.digest key.toByteArray.toList).a.toNat % 0x80000000)

/-- Where a routine comes from: the names on the way to its script, and the place of its batch. -/
structure Origin where
  names : List FileName
  index : Nat

/-- What the number of a routine is drawn from. -/
def Origin.key (o : Origin) : String := routineKey (sourcePath o.names) o.index

/-- The routines of a file, with their origins. -/
def originsOf (x : List FileName × Content) : List (Origin × Routine) :=
  match x.2.text? with
  | some script =>
    (batches script.toList).zipIdx.filterMap fun (batch, index) =>
      (routineOfBatch? (sourcePath x.1) index batch).map (⟨x.1, index⟩, ·)
  | none => []

/-! ## Lemmas: paths and keys -/

/-- Names without slashes are read from their path again. -/
theorem names_join {p : List String} (hp : p ≠ []) (hnames : ∀ name ∈ p, FilePath.LeadsDown name) :
    FilePath.names (FilePath.join p) = p := by
  have hsplit : splitAt '/' (FilePath.join p).toList = p.map String.toList := by
    rw [FilePath.join, String.toList_intercalate]
    refine FileTree.splitAt_intercalate (by simpa using hp) fun piece hpiece => ?_
    obtain ⟨name, hname, rfl⟩ := List.mem_map.1 hpiece
    exact (hnames name hname).2.2
  rw [FilePath.names, hsplit, List.map_map]
  simp [Function.comp_def]

theorem join_inj {p q : List String} (hp : p ≠ []) (hq : q ≠ [])
    (hpnames : ∀ name ∈ p, FilePath.LeadsDown name) (hqnames : ∀ name ∈ q, FilePath.LeadsDown name)
    (h : FilePath.join p = FilePath.join q) : p = q := by
  rw [← names_join hp hpnames, h, names_join hq hqnames]

/-- The path of plain names is made of them as they are. -/
theorem sourcePath_of_isPlain {p : List FileName} (h : ∀ name ∈ p, name.IsPlain) :
    ∃ names : List String, p = names.map .text ∧ sourcePath p = FilePath.join names := by
  obtain ⟨names, rfl⟩ : ∃ names : List String, p = names.map .text := by
    induction p with
    | nil => exact ⟨[], rfl⟩
    | cons name p ih =>
      obtain ⟨hname, hp⟩ := List.forall_mem_cons.1 h
      obtain ⟨names, rfl⟩ := ih hp
      cases name with
      | text s => exact ⟨s :: names, rfl⟩
      | bytes => exact hname.elim
  have hshown : (names.map FileName.text).map FileName.shown = names := by
    simp [Function.comp_def, FileName.shown]
  have hjoin : '\\' ∉ (FilePath.join names).toList := by
    rw [FilePath.join, String.toList_intercalate]
    refine FileTree.not_mem_intercalate (by decide) fun piece hpiece => ?_
    obtain ⟨s, hs, rfl⟩ := List.mem_map.1 hpiece
    exact h (.text s) (List.mem_map_of_mem hs)
  refine ⟨names, rfl, ?_⟩
  rw [sourcePath, hshown, ← String.toList_inj, String.toList_ofList]
  refine (List.map_congr_left fun c hc => if_neg ?_).trans (List.map_id _)
  rintro rfl
  exact hjoin hc

theorem sourcePath_inj {p q : List FileName} (hp : p ≠ []) (hq : q ≠ [])
    (hpnames : ∀ name ∈ p, name.IsSound) (hqnames : ∀ name ∈ q, name.IsSound)
    (hplain : ∀ name ∈ p ++ q, name.IsPlain) (h : sourcePath p = sourcePath q) : p = q := by
  obtain ⟨hpplain, hqplain⟩ := List.forall_mem_append.1 hplain
  obtain ⟨names, rfl, hpath⟩ := sourcePath_of_isPlain hpplain
  obtain ⟨names', rfl, hpath'⟩ := sourcePath_of_isPlain hqplain
  have hleads : ∀ {names : List String}, (∀ name ∈ names.map FileName.text, name.IsSound) →
      ∀ s ∈ names, FilePath.LeadsDown s :=
    fun h s hs => h (.text s) (List.mem_map_of_mem hs)
  rw [join_inj (by simpa using hp) (by simpa using hq) (hleads hpnames) (hleads hqnames)
    (hpath.symm.trans (h.trans hpath'))]

theorem decimal_inj {i j : Nat} (h : decimal i = decimal j) : i = j := by
  rw [← readDecimal_decimal i, h, readDecimal_decimal]

/-- Texts that end after the same sign, which is not in their ends. -/
theorem append_cons_inj {a b s t : List Char} {c : Char} (hs : c ∉ s) (ht : c ∉ t)
    (h : a ++ c :: s = b ++ c :: t) : a = b ∧ s = t := by
  have hend : ∀ {v s t : List Char}, c ∉ s → c :: s = v ++ c :: t → v = [] := by
    intro v s t hs hv
    cases v with
    | nil => rfl
    | cons d v =>
      have htail : s = v ++ c :: t := (List.cons.inj hv).2
      exact absurd (by simp [htail]) hs
  rcases List.append_eq_append_iff.1 h with ⟨v, rfl, hv⟩ | ⟨v, rfl, hv⟩
  · obtain rfl := hend hs hv
    exact ⟨(List.append_nil a).symm, (List.cons.inj hv).2⟩
  · obtain rfl := hend ht hv
    exact ⟨List.append_nil b, (List.cons.inj hv).2.symm⟩

/-- A key is read back: the sign between the path and the place is no digit. -/
theorem routineKey_inj {p q : String} {i j : Nat} :
    routineKey p i = routineKey q j ↔ p = q ∧ i = j := by
  refine ⟨fun h => ?_, by rintro ⟨rfl, rfl⟩; rfl⟩
  have hno : ∀ n : Nat, '#' ∉ decimal n := fun n hmem => by
    cases isDigit_of_mem_decimal hmem
  have hlists : p.toList ++ '#' :: decimal i = q.toList ++ '#' :: decimal j := by
    simpa [routineKey] using congrArg String.toList h
  obtain ⟨hpath, hindex⟩ := append_cons_inj (hno i) (hno j) hlists
  exact ⟨String.toList_inj.1 hpath, decimal_inj hindex⟩

/-! ## Lemmas: origins -/

theorem map_originsOf (x : List FileName × Content) :
    (originsOf x).map Prod.snd = (SourceFile.ofNames x).routines := by
  rw [originsOf, SourceFile.routines, SourceFile.ofNames]
  cases x.2.text? with
  | none => rfl
  | some script =>
    simp only [routinesOfScript, List.map_filterMap, Option.map_map]
    refine List.filterMap_congr fun y _ => ?_
    exact Option.map_id'

theorem of_mem_originsOf {x : List FileName × Content} {r : Origin × Routine} (h : r ∈ originsOf x) :
    r.1.names = x.1 ∧ r.2.objectId = idOfKey r.1.key := by
  unfold originsOf at h
  split at h
  · obtain ⟨⟨batch, index⟩, -, hr⟩ := List.mem_filterMap.1 h
    obtain ⟨routine, hroutine, rfl⟩ := Option.map_eq_some_iff.1 hr
    obtain ⟨header, -, hroutine⟩ := Option.bind_eq_some_iff.1 hroutine
    obtain rfl := Option.some.inj hroutine
    exact ⟨rfl, rfl⟩
  · cases h

/-- The routines of one script come from different batches. -/
theorem pairwise_originsOf (x : List FileName × Content) :
    (originsOf x).Pairwise fun r s => r.1.index ≠ s.1.index := by
  unfold originsOf
  split
  · next script _ =>
    have hindexes : ((batches script.toList).zipIdx.map Prod.snd).Nodup := by
      rw [List.zipIdx_map_snd]
      exact List.nodup_range' _
    refine (List.pairwise_map.1 hindexes).filterMap _ ?_
    rintro ⟨batch, i⟩ ⟨batch', j⟩ hne r hr s hs
    obtain ⟨-, -, rfl⟩ := Option.map_eq_some_iff.1 hr
    obtain ⟨-, -, rfl⟩ := Option.map_eq_some_iff.1 hs
    exact hne
  · exact .nil

/-! ## Lemmas: the files of a directory -/

/-- The scripts of a directory are the files that are admitted. -/
theorem sourceFiles_eq {dir : String} {c : Config} {t : FileTree} {directory : List String}
    {a : Admission} (hdir : t.directory? dir = some directory) (ha : Admission.ofConfig c = .ok a) :
    sourceFiles dir c t = .ok ((t.admitted a directory).map SourceFile.ofNames) := by
  have hsort := List.map_mergeSort (f := SourceFile.ofNames) (r := fun x y =>
    sourcePath x.1 ≤ sourcePath y.1) (s := fun f g => f.path ≤ g.path)
    (l := (t.filesBelow directory).filter fun x => a.admits (sourcePath x.1) x.2.size)
    fun _ _ _ _ => rfl
  rw [FileTree.admitted, hsort]
  simp only [sourceFiles, hdir, ha, bind, Except.bind]
  congr 2
  exact List.filter_map

/-- Admitted files are in the order of their paths. -/
theorem pairwise_admitted (t : FileTree) (a : Admission) (directory : List String) :
    (t.admitted a directory).Pairwise fun x y => sourcePath x.1 ≤ sourcePath y.1 := by
  have hsorted : (t.admitted a directory).Pairwise fun x y =>
      decide (sourcePath x.1 ≤ sourcePath y.1) = true := by
    refine List.pairwise_mergeSort (fun x y z hxy hyz => ?_) (fun x y => ?_) _
    · rw [decide_eq_true_eq] at hxy hyz ⊢
      exact String.le_trans hxy hyz
    · rw [Bool.or_eq_true, decide_eq_true_eq, decide_eq_true_eq]
      exact String.le_total _ _
  exact hsorted.imp of_decide_eq_true

/-- Admitted files with the same path are twins. -/
theorem areTwins_of_admitted {t : FileTree} (h : t.IsSound) (a : Admission)
    (directory : List String) :
    (t.admitted a directory).Pairwise fun x y =>
      sourcePath x.1 = sourcePath y.1 → AreTwins x.1 y.1 := by
  have hfiles : (t.filesBelow directory).Pairwise fun x y =>
      sourcePath x.1 = sourcePath y.1 → AreTwins x.1 y.1 := by
    refine (h.pairwise_filesBelow directory).imp_of_mem fun {x y} hx hy hne hpath => ?_
    obtain ⟨hxne, hxnames⟩ := h.of_mem_filesBelow directory hx
    obtain ⟨hyne, hynames⟩ := h.of_mem_filesBelow directory hy
    exact ⟨hne, hpath, fun hplain =>
      hne (sourcePath_inj hxne hyne hxnames hynames hplain hpath)⟩
  have hsymm : ∀ {x y : List FileName × Content},
      (sourcePath x.1 = sourcePath y.1 → AreTwins x.1 y.1) →
        sourcePath y.1 = sourcePath x.1 → AreTwins y.1 x.1 := by
    intro x y hxy hpath
    obtain ⟨hne, -, hplain⟩ := hxy hpath.symm
    refine ⟨hne.symm, hpath, fun hall => hplain ?_⟩
    exact List.forall_mem_append.2 (List.forall_mem_append.1 hall).symm
  exact ((List.mergeSort_perm _ _).pairwise_iff hsymm).2 (hfiles.filter _)

/-! ## Top theorem (proved from the lemmas above) -/

/-- **The keys of routines.** The scripts below a directory are in the order of the bytes of their
paths, and their routines, whose numbers are drawn from their keys, have different keys: the one and
the other but for twins, which share a path, and a key where the places of their batches are the
same. -/
theorem sourceFiles_keys_apart {dir : String} {c : Config} {t : FileTree} {directory : List String}
    {a : Admission} (hdir : t.directory? dir = some directory) (hsound : t.IsSound)
    (ha : Admission.ofConfig c = .ok a) :
    sourceFiles dir c t = .ok ((t.admitted a directory).map SourceFile.ofNames) ∧
      ((t.admitted a directory).Pairwise fun x y =>
        bytesOf (sourcePath x.1) < bytesOf (sourcePath y.1) ∨ AreTwins x.1 y.1) ∧
      ((t.admitted a directory).flatMap originsOf).map Prod.snd =
        routinesOfFiles ((t.admitted a directory).map SourceFile.ofNames) ∧
      (∀ r ∈ (t.admitted a directory).flatMap originsOf, r.2.objectId = idOfKey r.1.key) ∧
      ((t.admitted a directory).flatMap originsOf).Pairwise fun r s =>
        r.1.key ≠ s.1.key ∨ AreTwins r.1.names s.1.names ∧ r.1.index = s.1.index := by
  have htwins := areTwins_of_admitted hsound a directory
  refine ⟨sourceFiles_eq hdir ha, ?_, ?_, ?_, ?_⟩
  · refine (pairwise_admitted t a directory).imp₂ (fun x y hle htwins => ?_) htwins
    rcases Std.le_iff_lt_or_eq.1 hle with hlt | heq
    · exact .inl (lt_iff_bytesOf_lt.1 hlt)
    · exact .inr (htwins heq)
  · rw [List.map_flatMap, routinesOfFiles, List.flatMap_map]
    simp only [map_originsOf]
  · intro r hr
    obtain ⟨x, -, hr⟩ := List.mem_flatMap.1 hr
    exact (of_mem_originsOf hr).2
  · refine List.pairwise_flatMap.2 ⟨fun x _ => ?_, ?_⟩
    · -- routines of one file
      refine (pairwise_originsOf x).imp fun hindex => .inl fun hkey => hindex ?_
      exact (routineKey_inj.1 hkey).2
    · -- routines of two files
      refine htwins.imp fun {x y} htwins r hr s hs => ?_
      by_cases hkey : r.1.key = s.1.key
      · obtain ⟨hpath, hindex⟩ := routineKey_inj.1 hkey
        rw [(of_mem_originsOf hr).1, (of_mem_originsOf hs).1] at hpath ⊢
        exact .inr ⟨htwins hpath, hindex⟩
      · exact .inl hkey

/-- Scripts with a sign and digits in their paths, and two pairs of twins: of one pair a name has a
backslash, of the other the names are no text. -/
def twinTree : FileTree where
  root := .directory [("sql", .directory [
    ("b#1.sql", .file (.bytes "create proc p as begin end\nGO\ncreate proc q as begin end".toUTF8)),
    ("a", .directory [("b.sql", .file (.bytes "create proc p @a int as begin end".toUTF8))]),
    (.bytes ⟨#[0xfe, 0x2e, 0x73, 0x71, 0x6c]⟩ (by decide +kernel), .file (.bytes .empty)),
    ("a\\b.sql", .file (.bytes "create proc p @a int as begin end".toUTF8)),
    (.bytes ⟨#[0xff, 0x2e, 0x73, 0x71, 0x6c]⟩ (by decide +kernel), .file (.bytes .empty))])]
  home := []

theorem isSound_twinTree : twinTree.IsSound := by
  refine .directory (by decide +kernel) (by decide +kernel) (List.forall_mem_singleton.2 ?_)
  refine .directory (by decide +kernel) (by decide +kernel) ?_
  simp only [List.forall_mem_cons]
  refine ⟨.file _, .directory (by decide +kernel) (by decide +kernel) ?_, .file _, .file _, .file _,
    by simp⟩
  exact List.forall_mem_singleton.2 (.file _)

theorem exists_admission : ∃ a, Admission.ofConfig .standard = .ok a := by
  cases ha : Admission.ofConfig .standard with
  | ok a => exact ⟨a, rfl⟩
  | error e =>
    have hok : (Admission.ofConfig .standard).toOption.isSome = true := by decide +kernel
    rw [ha] at hok
    cases hok

/-- The keys of scripts of which two are twins. -/
theorem sourceFiles_keys_apart_twinTree :
    twinTree.directory? "sql" = some ["sql"] ∧ twinTree.IsSound ∧
      ∃ a, Admission.ofConfig .standard = .ok a ∧
        ((twinTree.admitted a ["sql"]).Pairwise fun x y =>
          bytesOf (sourcePath x.1) < bytesOf (sourcePath y.1) ∨ AreTwins x.1 y.1) ∧
        ((twinTree.admitted a ["sql"]).flatMap originsOf).Pairwise fun r s =>
          r.1.key ≠ s.1.key ∨ AreTwins r.1.names s.1.names ∧ r.1.index = s.1.index := by
  obtain ⟨a, ha⟩ := exists_admission
  have hdir : twinTree.directory? "sql" = some ["sql"] := by rfl
  obtain ⟨-, hpaths, -, -, hkeys⟩ := sourceFiles_keys_apart hdir isSound_twinTree ha
  exact ⟨hdir, isSound_twinTree, a, ha, hpaths, hkeys⟩

theorem perm_admitted_twinTree {a : Admission} (ha : Admission.ofConfig .standard = .ok a) :
    (twinTree.admitted a ["sql"]).Perm (twinTree.filesBelow ["sql"]) := by
  have hall : (Admission.ofConfig .standard).toOption.all (fun a =>
      (twinTree.filesBelow ["sql"]).all fun x => a.admits (sourcePath x.1) x.2.size) = true := by
    decide +kernel
  rw [ha] at hall
  exact (List.mergeSort_perm _ _).trans (.of_eq (List.filter_eq_self.2 (List.all_eq_true.1 hall)))

/-- Twins have one path, and their routines share keys. -/
theorem not_forall_keys_apart :
    (¬∀ dir c t files, t.IsSound → sourceFiles dir c t = .ok files →
        files.Pairwise fun f g => bytesOf f.path < bytesOf g.path) ∧
      ¬∀ dir c (t : FileTree) directory a, t.IsSound → t.directory? dir = some directory →
        Admission.ofConfig c = .ok a →
          ((t.admitted a directory).flatMap originsOf).Pairwise fun r s => r.1.key ≠ s.1.key := by
  obtain ⟨a, ha⟩ := exists_admission
  have hdir : twinTree.directory? "sql" = some ["sql"] := by rfl
  have hperm := perm_admitted_twinTree ha
  constructor
  · intro h
    have hstrict := h _ _ _ _ isSound_twinTree (sourceFiles_eq hdir ha)
    have hnodup : ((twinTree.admitted a ["sql"]).map fun x => sourcePath x.1).Nodup := by
      refine List.pairwise_map.2 ((List.pairwise_map.1 hstrict).imp fun {x y} hlt heq => ?_)
      have hlt : sourcePath x.1 < sourcePath y.1 := lt_iff_bytesOf_lt.2 hlt
      rw [heq] at hlt
      exact String.lt_irrefl _ hlt
    rw [(hperm.map _).nodup_iff] at hnodup
    exact absurd hnodup (by decide +kernel)
  · intro h
    have hnodup : (((twinTree.admitted a ["sql"]).flatMap originsOf).map fun r => r.1.key).Nodup :=
      List.pairwise_map.2 (h _ _ _ _ _ isSound_twinTree hdir ha)
    rw [((hperm.flatMap_right _).map _).nodup_iff] at hnodup
    exact absurd hnodup (by decide +kernel)

end RoutineParams
