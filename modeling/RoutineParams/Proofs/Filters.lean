import RoutineParams.Proofs.SingleFiles

/-!
# Filters of discovery

Three filters decide which files of a directory are admitted: a pattern includes the path, none
ignores it, and the size is small enough. The patterns of a configuration count as a set, so neither
their order nor a repeated pattern has a say. Files are sorted after they are filtered, which comes
to the same as filtering what is sorted: to admit more files puts more into the list and moves none.

    (xs.filter p).mergeSort r = (xs.mergeSort r).filter p                      (mergeSort_filter)
    Admission.ofConfig c = .ok a → a.admits path size ↔ what the patterns of c say of path
                                                                          (Admission.admits_iff)
    more patterns that include, fewer that ignore → more files, in the same order
                                                                            (sourceFiles_sublist)
-/

namespace RoutineParams

/-! ## Definitions -/

/-- A text writes a pattern that is not too deep. -/
def Glob.Builds (text : String) : Prop :=
  ∃ p, Glob.Pattern.parse text = .ok p ∧ p.depth ≤ Glob.maxDepth

/-- A text writes a pattern that matches a path. -/
def Glob.Matches (text path : String) : Prop :=
  ∃ p, Glob.Pattern.parse text = .ok p ∧ p.isMatch path = true

/-- All patterns of a configuration can be built. -/
def Config.Builds (c : Config) : Prop :=
  ∀ text ∈ c.includePatterns ++ c.ignorePatterns, Glob.Builds text

instance (text : String) : Decidable (Glob.Builds text) :=
  decidable_of_iff ((Glob.Pattern.parse text).toOption.any (·.depth ≤ Glob.maxDepth) = true) (by
    unfold Glob.Builds
    cases Glob.Pattern.parse text <;> simp [Except.toOption])

instance (c : Config) : Decidable c.Builds :=
  inferInstanceAs (Decidable (∀ text ∈ c.includePatterns ++ c.ignorePatterns, Glob.Builds text))

/-- What a configuration admits `c'` admits too: whatever it includes is included there, whatever is
ignored there it ignores, and no larger files. -/
structure Config.AdmitsLess (c c' : Config) : Prop where
  includes : c.includePatterns ⊆ c'.includePatterns
  ignores : c'.ignorePatterns ⊆ c.ignorePatterns
  size : c.maxFileSize ≤ c'.maxFileSize

/-! ## Lemmas: sorting what is filtered -/

/-- **Filtering before sorting** comes to the same as after it. The sort is stable, so that a first
item goes to a place that the others alone decide: behind those before it, in front of the rest. -/
theorem mergeSort_filter {α : Type} {r : α → α → Bool} (htrans : ∀ x y z, r x y → r y z → r x z)
    (htotal : ∀ x y, r x y || r y x) (p : α → Bool) (xs : List α) :
    (xs.filter p).mergeSort r = (xs.mergeSort r).filter p := by
  induction xs with
  | nil => simp
  | cons x xs ih =>
    obtain ⟨before, after, hsort, hrest, hbefore⟩ := List.mergeSort_cons htrans htotal x xs
    have hsorted := List.pairwise_mergeSort htrans htotal (x :: xs)
    rw [hsort, List.pairwise_append, List.pairwise_cons] at hsorted
    obtain ⟨-, ⟨hafter, -⟩, -⟩ := hsorted
    rw [hrest, List.filter_append] at ih
    rw [hsort, List.filter_append]
    by_cases hx : p x = true
    · rw [List.filter_cons_of_pos hx, List.filter_cons_of_pos hx]
      obtain ⟨before', after', hsort', hrest', hbefore'⟩ :=
        List.mergeSort_cons htrans htotal x (xs.filter p)
      have hsorted' := List.pairwise_mergeSort htrans htotal (x :: xs.filter p)
      rw [hsort', List.pairwise_append, List.pairwise_cons] at hsorted'
      obtain ⟨-, ⟨hafter', -⟩, -⟩ := hsorted'
      -- both lists are cut where the items stop to be before `x`
      have hcut : before' ++ after' = before.filter p ++ after.filter p := hrest'.symm.trans ih
      have htake : ∀ a b : List α, (∀ y ∈ a, !r x y) → (∀ y ∈ b, r x y) →
          (a ++ b).filter (!r x ·) = a ∧ (a ++ b).filter (r x ·) = b := by
        intro a b ha hb
        rw [List.filter_append, List.filter_append, List.filter_eq_self.2 ha,
          List.filter_eq_self.2 hb, List.filter_eq_nil_iff.2 fun y hy => by simp [hb y hy],
          List.filter_eq_nil_iff.2 fun y hy => by simpa using ha y hy]
        simp
      obtain ⟨hleft', hright'⟩ := htake before' after' hbefore' hafter'
      obtain ⟨hleft, hright⟩ := htake (before.filter p) (after.filter p)
        (fun y hy => hbefore y (List.mem_filter.1 hy).1)
        (fun y hy => hafter y (List.mem_filter.1 hy).1)
      have hbefores : before' = before.filter p :=
        hleft'.symm.trans ((congrArg (List.filter (!r x ·)) hcut).trans hleft)
      have hafters : after' = after.filter p :=
        hright'.symm.trans ((congrArg (List.filter (r x ·)) hcut).trans hright)
      rw [hsort', hbefores, hafters]
    · rw [List.filter_cons_of_neg hx, List.filter_cons_of_neg hx, ih]

/-! ## Lemmas: patterns as a set -/

section
variable {texts : List String} {ps : List Glob.Pattern} {c c' : Config} {a : Admission}

theorem readPatterns_cons {text : String} {p : Glob.Pattern}
    (hp : Glob.Pattern.parse text = .ok p) (h : readPatterns texts = .ok ps) :
    readPatterns (text :: texts) = .ok (p :: ps) := by
  rw [readPatterns, hp]
  simp only [h]

/-- Patterns are read one by one. -/
theorem readPatterns_cons_ok_iff {text : String} :
    readPatterns (text :: texts) = .ok ps ↔ ∃ p rest, Glob.Pattern.parse text = .ok p ∧
      readPatterns texts = .ok rest ∧ ps = p :: rest := by
  constructor
  · intro h
    rw [readPatterns] at h
    split at h
    · cases h
    · next p hp =>
      split at h
      · next rest hrest => exact ⟨p, rest, hp, hrest, (Except.ok.inj h).symm⟩
      · cases h
  · rintro ⟨p, rest, hp, hrest, rfl⟩
    exact readPatterns_cons hp hrest

theorem exists_matches_iff (h : readPatterns texts = .ok ps) (path : String) :
    ps.any (·.isMatch path) = true ↔ ∃ text ∈ texts, Glob.Matches text path := by
  induction texts generalizing ps with
  | nil =>
    obtain rfl := Except.ok.inj h
    simp
  | cons text texts ih =>
    obtain ⟨p, rest, hp, hrest, rfl⟩ := readPatterns_cons_ok_iff.1 h
    rw [List.any_cons, Bool.or_eq_true, ih hrest, List.exists_mem_cons_iff]
    refine or_congr ⟨fun hmatch => ⟨p, hp, hmatch⟩, ?_⟩ .rfl
    rintro ⟨p', hp', hmatch⟩
    obtain rfl : p = p' := Except.ok.inj (hp.symm.trans hp')
    exact hmatch

theorem readPatternSet_ok_iff :
    readPatternSet texts = .ok ps ↔
      readPatterns texts = .ok ps ∧ ∀ p ∈ ps, p.depth ≤ Glob.maxDepth := by
  unfold readPatternSet Glob.tooDeep?
  cases readPatterns texts with
  | error e =>
    constructor
    · intro h
      cases h
    · rintro ⟨h, -⟩
      cases h
  | ok qs =>
    simp only [bind, Except.bind]
    split
    · next hnone =>
      rw [List.findIdx?_eq_none_iff] at hnone
      constructor
      · rintro ⟨⟩
        exact ⟨rfl, fun p hp => by simpa using hnone p hp⟩
      · exact fun h => h.1
    · next i hsome =>
      refine ⟨fun h => (by cases h), fun ⟨hok, hdepth⟩ => ?_⟩
      obtain rfl := Except.ok.inj hok
      have hnone : qs.findIdx? (Glob.maxDepth < ·.depth) = none :=
        List.findIdx?_eq_none_iff.2 fun p hp => by simpa using hdepth p hp
      rw [hnone] at hsome
      cases hsome

/-- Patterns that can be built one by one can be built together. -/
theorem exists_readPatternSet (h : ∀ text ∈ texts, Glob.Builds text) :
    ∃ ps, readPatternSet texts = .ok ps := by
  have hread : ∃ ps, readPatterns texts = .ok ps ∧ ∀ p ∈ ps, p.depth ≤ Glob.maxDepth := by
    induction texts with
    | nil => exact ⟨[], rfl, by simp⟩
    | cons text texts ih =>
      rw [List.forall_mem_cons] at h
      obtain ⟨⟨p, hp, hdepth⟩, htexts⟩ := h
      obtain ⟨ps, hps, hdepths⟩ := ih htexts
      exact ⟨p :: ps, readPatterns_cons hp hps, List.forall_mem_cons.2 ⟨hdepth, hdepths⟩⟩
  obtain ⟨ps, hps⟩ := hread
  exact ⟨ps, readPatternSet_ok_iff.2 hps⟩

namespace Admission

theorem ofConfig_ok (h : ofConfig c = .ok a) :
    readPatternSet c.includePatterns = .ok a.includes ∧
      readPatternSet c.ignorePatterns = .ok a.ignores ∧ a.maxFileSize = c.maxFileSize.toNat := by
  unfold ofConfig at h
  cases hincludes : readPatternSet c.includePatterns with
  | error e => rw [hincludes] at h; cases h
  | ok includes =>
    cases hignores : readPatternSet c.ignorePatterns with
    | error e => rw [hincludes, hignores] at h; cases h
    | ok ignores =>
      rw [hincludes, hignores] at h
      obtain rfl := Except.ok.inj h
      exact ⟨rfl, rfl, rfl⟩

theorem exists_of_builds (h : c.Builds) : ∃ a, ofConfig c = .ok a := by
  obtain ⟨hincludes, hignores⟩ := List.forall_mem_append.1 h
  obtain ⟨includes, hincludes⟩ := exists_readPatternSet hincludes
  obtain ⟨ignores, hignores⟩ := exists_readPatternSet hignores
  refine ⟨⟨includes, ignores, c.maxFileSize.toNat⟩, ?_⟩
  rw [ofConfig, hincludes, hignores]
  rfl

/-- **What is admitted**: a path that one of the patterns includes and none ignores, of a file that
is not too large. -/
theorem admits_iff (h : ofConfig c = .ok a) (path : String) (size : Nat) :
    a.admits path size = true ↔ (∃ text ∈ c.includePatterns, Glob.Matches text path) ∧
      (∀ text ∈ c.ignorePatterns, ¬Glob.Matches text path) ∧ size ≤ c.maxFileSize.toNat := by
  obtain ⟨hincludes, hignores, hsize⟩ := ofConfig_ok h
  have hincluded := exists_matches_iff (readPatternSet_ok_iff.1 hincludes).1 path
  have hignored := exists_matches_iff (readPatternSet_ok_iff.1 hignores).1 path
  rw [admits, Bool.and_eq_true, Bool.and_eq_true, hincluded, Bool.not_eq_true', hsize,
    decide_eq_true_eq, ← Bool.not_eq_true, hignored, and_assoc]
  simp only [not_exists, not_and]

theorem admits_of_admitsLess {a' : Admission} (ha : ofConfig c = .ok a)
    (ha' : ofConfig c' = .ok a') (h : c.AdmitsLess c') {path : String} {size : Nat}
    (hadmits : a.admits path size = true) : a'.admits path size = true := by
  obtain ⟨⟨text, htext, hmatches⟩, hignored, hsize⟩ := (admits_iff ha path size).1 hadmits
  exact (admits_iff ha' path size).2 ⟨⟨text, h.includes htext, hmatches⟩,
    fun text htext => hignored text (h.ignores htext),
    hsize.trans (UInt64.le_iff_toNat_le.1 h.size)⟩

end Admission

end

/-! ## Lemmas: the files of a directory -/

namespace FileTree

variable {t : FileTree} {a a' : Admission}

/-- The files that are admitted are those of all files in order. -/
theorem admitted_eq_filter (t : FileTree) (a : Admission) (directory : List String) :
    t.admitted a directory =
      ((t.filesBelow directory).mergeSort fun x y => sourcePath x.1 ≤ sourcePath y.1).filter
        fun x => a.admits (sourcePath x.1) x.2.size := by
  refine mergeSort_filter (fun x y z hxy hyz => ?_) (fun x y => ?_) _ _
  · rw [decide_eq_true_eq] at hxy hyz ⊢
    exact String.le_trans hxy hyz
  · rw [Bool.or_eq_true, decide_eq_true_eq, decide_eq_true_eq]
    exact String.le_total _ _

theorem admitted_sublist (h : ∀ path size, a.admits path size = true → a'.admits path size = true)
    (directory : List String) : (t.admitted a directory).Sublist (t.admitted a' directory) := by
  rw [admitted_eq_filter, admitted_eq_filter]
  exact List.monotone_filter_right _ fun x hx => h _ _ hx

theorem mem_map_admitted {directory : List String} {f : SourceFile} :
    f ∈ (t.admitted a directory).map .ofNames ↔
      f ∈ (t.filesBelow directory).map .ofNames ∧ a.admits f.path f.content.size = true := by
  simp only [List.mem_map, mem_admitted]
  constructor
  · rintro ⟨x, ⟨hx, hadmits⟩, rfl⟩
    exact ⟨⟨x, hx, rfl⟩, hadmits⟩
  · rintro ⟨⟨x, hx, rfl⟩, hadmits⟩
    exact ⟨x, ⟨hx, hadmits⟩, rfl⟩

end FileTree

/-! ## Top theorem (proved from the lemmas above) -/

/-- **Filters of discovery.** Of two configurations whose patterns can be built, one that admits less
finds some of the files that the other one finds, in the same order. Where each admits less than the
other, that is, where the one is the other but for the order of patterns and repeated ones, both find
the same. What a pattern ignores is not found, whatever includes it. -/
theorem sourceFiles_sublist {dir : String} {directory : List String} {t : FileTree}
    {c c' : Config} (hdir : t.directory? dir = some directory) (hbuilds : c.Builds)
    (hbuilds' : c'.Builds) (hless : c.AdmitsLess c') :
    ∃ files files', sourceFiles dir c t = .ok files ∧ sourceFiles dir c' t = .ok files' ∧
      files.Sublist files' ∧ (c'.AdmitsLess c → files' = files) ∧
      ∀ f, f ∈ files ↔ f ∈ (t.filesBelow directory).map .ofNames ∧
        (∃ text ∈ c.includePatterns, Glob.Matches text f.path) ∧
        (∀ text ∈ c.ignorePatterns, ¬Glob.Matches text f.path) ∧
        f.content.size ≤ c.maxFileSize.toNat := by
  obtain ⟨a, ha⟩ := Admission.exists_of_builds hbuilds
  obtain ⟨a', ha'⟩ := Admission.exists_of_builds hbuilds'
  have hsublist : (t.admitted a directory).Sublist (t.admitted a' directory) :=
    FileTree.admitted_sublist (fun _ _ => Admission.admits_of_admitsLess ha ha' hless) directory
  refine ⟨_, _, sourceFiles_eq hdir ha, sourceFiles_eq hdir ha', hsublist.map _, fun hmore => ?_,
    fun f => ?_⟩
  · have hsublist' : (t.admitted a' directory).Sublist (t.admitted a directory) :=
      FileTree.admitted_sublist (fun _ _ => Admission.admits_of_admitsLess ha' ha hmore) directory
    rw [hsublist'.antisymm hsublist]
  · rw [FileTree.mem_map_admitted, Admission.admits_iff ha]

/-- A configuration that ignores some of what it includes. -/
def narrowConfig : Config :=
  { Config.standard with
    includePatterns := ["*.sql"], ignorePatterns := ["b*", "c/*"], maxFileSize := 64 }

/-- A configuration that ignores nothing and includes more, one pattern twice. -/
def wideConfig : Config :=
  { Config.standard with
    includePatterns := ["**/*.sql", "*.sql", "**/*.sql"], ignorePatterns := [] }

/-- The first configuration finds one file of three, which the second one finds too. -/
theorem sourceFiles_sublist_mixedTree :
    mixedTree.directory? "sql" = some ["sql"] ∧ narrowConfig.Builds ∧ wideConfig.Builds ∧
      narrowConfig.AdmitsLess wideConfig ∧
      ∃ files files', sourceFiles "sql" narrowConfig mixedTree = .ok files ∧
        sourceFiles "sql" wideConfig mixedTree = .ok files' ∧ files.Sublist files' ∧
        files.map SourceFile.path = ["a.sql"] := by
  have hbuilds : narrowConfig.Builds ∧ wideConfig.Builds := by decide +kernel
  have hless : narrowConfig.AdmitsLess wideConfig := ⟨by decide, by decide, by decide⟩
  have hpaths : ((sourceFiles "sql" narrowConfig mixedTree).toOption.map fun files =>
      files.map SourceFile.path) = some ["a.sql"] := by decide +kernel
  obtain ⟨files, files', hfiles, hfiles', hsublist, -⟩ :=
    @sourceFiles_sublist "sql" _ mixedTree _ _ rfl hbuilds.1 hbuilds.2 hless
  rw [hfiles] at hpaths
  exact ⟨rfl, hbuilds.1, hbuilds.2, hless, files, files', hfiles, hfiles', hsublist,
    Option.some.inj hpaths⟩

end RoutineParams
