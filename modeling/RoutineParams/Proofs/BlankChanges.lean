import RoutineParams.Header
import RoutineParams.Proofs.Respacing

/-!
# Changed blanks

A text after a change of its blanks, and its parts: what comes before and behind some characters of
the text is changed in the same way. A blank is no character of a word or of a name.

    Respaced g s s'                                    s' is s with its blanks changed, and more blanks
    Respaced g s s' → Respaced g (s.dropWhile isBlank) (s'.dropWhile isBlank)         (Respaced.dropWhile)
    Respaced g s s' → Respaced g (s.drop n) (s'.drop (respacedLength g s n))              (Respaced.drop)
-/

namespace RoutineParams

/-! ## Definitions -/

/-- Whether `s'` is the text `s` after a change of blanks, with any blanks behind it. -/
def Respaced (g : Char → List Char) (s s' : List Char) : Prop :=
  ∃ e, isAllBlank e = true ∧ s' = s.flatMap g ++ e

/-- How long the first `n` characters of a text become. -/
def respacedLength (g : Char → List Char) (s : List Char) (n : Nat) : Nat :=
  ((s.take n).flatMap g).length

/-! ## Lemmas: characters of a header -/

theorem of_isBlank {P : Char → Prop} (hP : ∀ n ∈ blankCodes, P (Char.ofNat n)) {c : Char}
    (h : isBlank c = true) : P c := by
  have := hP _ (mem_blankCodes h)
  rwa [Char.ofNat_toNat] at this

theorem toUpper_of_isBlank {c : Char} (h : isBlank c = true) : c.toUpper = c :=
  of_isBlank (P := fun c => c.toUpper = c) (by decide) h

theorem isWordChar_of_isBlank {c : Char} (h : isBlank c = true) : isWordChar c = false := by
  have hgap := startsGap_of_isBlank h
  have hsmall : (c.isAlphanum || c == '_') = false :=
    of_isBlank (P := fun c => (c.isAlphanum || c == '_') = false) (by decide) h
  unfold isWordChar
  split
  · exact hsmall
  · rename_i hlarge
    have hmark : inRanges wordMarkRanges c = false :=
      inRanges_of_apart (by decide +kernel) ((inRanges_of_startsGap hgap).resolve_left hlarge)
    rw [isAlphabetic_of_startsGap hgap, hmark]
    rfl

theorem isNamePart_of_isBlank {c : Char} (h : isBlank c = true) : isNamePart c = false := by
  have hsign : (c == '@' || c == '$' || c == '#') = false :=
    of_isBlank (P := fun c => (c == '@' || c == '$' || c == '#') = false) (by decide) h
  rw [Bool.or_assoc] at hsign
  rw [isNamePart, isWordChar_of_isBlank h, Bool.false_or, Bool.or_assoc, hsign]

theorem isNameStart_of_isBlank {c : Char} (h : isBlank c = true) : isNameStart c = false :=
  of_isBlank (P := fun c => isNameStart c = false) (by decide) h

/-! ## Lemmas: changed texts -/

namespace Respaced

variable {g : Char → List Char} {c : Char} {s s' t : List Char}

theorem refl_append {e : List Char} (he : RoutineParams.isAllBlank e = true) (s : List Char) :
    Respaced (fun c => [c]) s (s ++ e) := ⟨e, he, by simp⟩

theorem of_nil (h : Respaced g [] s') : RoutineParams.isAllBlank s' = true := by
  obtain ⟨e, he, rfl⟩ := h
  simpa using he

variable (hg : Respaces g)
include hg

theorem isAllBlank_eq (h : Respaced g s s') :
    RoutineParams.isAllBlank s' = RoutineParams.isAllBlank s := by
  obtain ⟨e, he, rfl⟩ := h
  rw [isAllBlank_append, hg.isAllBlank_flatMap, he, Bool.and_true]

theorem of_nonblank (h : Respaced g (c :: s) s') (hc : isBlank c = false) :
    ∃ t', s' = c :: t' ∧ Respaced g s t' := by
  obtain ⟨e, he, rfl⟩ := h
  exact ⟨s.flatMap g ++ e, by simp [hg.keeps c hc], e, he, rfl⟩

theorem of_blank (h : Respaced g (c :: s) s') (hc : isBlank c = true) :
    ∃ d t', s' = d :: t' ∧ isBlank d = true := by
  obtain ⟨e, he, rfl⟩ := h
  obtain ⟨d, b, hb⟩ := List.exists_cons_of_ne_nil (hg.ne_nil c)
  have hblank := hg.isAllBlank c hc
  rw [hb, isAllBlank_cons, Bool.and_eq_true] at hblank
  exact ⟨d, b ++ s.flatMap g ++ e, by simp [hb], hblank.1⟩

/-- Where the first character is a blank, or there is none, the changed text has no other first
character. -/
theorem head_cases (h : Respaced g s s') :
    (∃ c t t', s = c :: t ∧ s' = c :: t' ∧ isBlank c = false ∧ Respaced g t t') ∨
      (∀ c ∈ s.head?, isBlank c = true) ∧ ∀ c ∈ s'.head?, isBlank c = true := by
  cases s with
  | nil =>
    refine .inr ⟨by simp, fun c hc => ?_⟩
    exact List.all_eq_true.1 h.of_nil c (List.mem_of_mem_head? hc)
  | cons c t =>
    cases hc : isBlank c with
    | true =>
      obtain ⟨d, t', rfl, hd⟩ := h.of_blank hg hc
      exact .inr ⟨by simp [hc], by simp [hd]⟩
    | false =>
      obtain ⟨t', rfl, ht⟩ := h.of_nonblank hg hc
      exact .inl ⟨c, t, t', rfl, rfl, hc, ht⟩

/-- After the blanks at the front of both texts. -/
theorem dropWhile (h : Respaced g s s') :
    Respaced g (s.dropWhile isBlank) (s'.dropWhile isBlank) := by
  cases hs : RoutineParams.isAllBlank s with
  | true =>
    rw [dropWhile_isBlank_of_all hs, dropWhile_isBlank_of_all ((h.isAllBlank_eq hg).trans hs)]
    exact ⟨[], rfl, rfl⟩
  | false =>
    obtain ⟨a, c, t, rfl, ha, hc⟩ := exists_nonblank hs
    obtain ⟨e, he, rfl⟩ := h
    have hflat : (a ++ c :: t).flatMap g ++ e = a.flatMap g ++ c :: (t.flatMap g ++ e) := by
      simp [hg.keeps c hc]
    rw [hflat, dropWhile_isBlank_of_nonblank ((hg.isAllBlank_flatMap a).trans ha) hc,
      dropWhile_isBlank_of_nonblank ha hc]
    exact ⟨e, he, by simp [hg.keeps c hc]⟩

theorem exists_of_nonblank {c : Char} {t' : List Char} (h : Respaced g s (c :: t'))
    (hc : isBlank c = false) : ∃ t, s = c :: t := by
  rcases h.head_cases hg with ⟨d, t, u, rfl, hd, -, -⟩ | ⟨-, hblank⟩
  · exact ⟨t, by rw [(List.cons.inj hd).1]⟩
  · have := hblank c rfl
    rw [hc] at this
    cases this

/-- No point comes first where none did. -/
theorem ne_dot (h : Respaced g s s') (hs : ∀ t, s.dropWhile isBlank ≠ '.' :: t) (t' : List Char) :
    s'.dropWhile isBlank ≠ '.' :: t' := by
  intro ht'
  have hdrop := h.dropWhile hg
  rw [ht'] at hdrop
  obtain ⟨t, ht⟩ := hdrop.exists_of_nonblank hg (by decide)
  exact hs t ht

end Respaced

/-! ## Lemmas: lengths -/

section
variable {g : Char → List Char} {s s' : List Char}

theorem respacedLength_add (s : List Char) (m n : Nat) :
    respacedLength g s (m + n) = respacedLength g s m + respacedLength g (s.drop m) n := by
  simp [respacedLength, List.take_add]

theorem respacedLength_takeWhile (p : Char → Bool) (s : List Char) :
    respacedLength g s (s.takeWhile p).length = ((s.takeWhile p).flatMap g).length := by
  rw [respacedLength, ← List.prefix_iff_eq_take.1 (List.takeWhile_prefix p)]

theorem flatMap_append_take_drop (s e : List Char) (n : Nat) :
    s.flatMap g ++ e = (s.take n).flatMap g ++ ((s.drop n).flatMap g ++ e) := by
  rw [← List.append_assoc, ← List.flatMap_append, List.take_append_drop]

theorem Respaced.take (h : Respaced g s s') (n : Nat) :
    s'.take (respacedLength g s n) = (s.take n).flatMap g := by
  obtain ⟨e, -, rfl⟩ := h
  rw [flatMap_append_take_drop s e n]
  exact List.take_left

theorem Respaced.drop (h : Respaced g s s') (n : Nat) :
    Respaced g (s.drop n) (s'.drop (respacedLength g s n)) := by
  obtain ⟨e, he, rfl⟩ := h
  refine ⟨e, he, ?_⟩
  rw [flatMap_append_take_drop s e n]
  exact List.drop_left

end

end RoutineParams
