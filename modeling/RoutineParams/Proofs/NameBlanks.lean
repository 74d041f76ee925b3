import RoutineParams.Proofs.BlankChanges

/-!
# Names and blanks

A change of blanks changes a name alike. The blanks around the points of a name belong to it, those
within brackets too, and the point between two parts is found at the same place; so what is read of
a name has the length of what it was changed into.

    Respaced g s s' → name? s' = (name? s).map (·.flatMap g)                        (name?_respaced)
    tightenDots (n.flatMap g) = (tightenDots n).flatMap g                      (tightenDots_flatMap)
-/

namespace RoutineParams

/-! ## Lemmas: parts of a name -/

section
variable {s : List Char}

theorem partLength_of_blank (h : ∀ c ∈ s.head?, isBlank c = true) : partLength s = 0 := by
  cases s with
  | nil => rfl
  | cons c t =>
    have hc := h c rfl
    have hne : c ≠ '[' := by
      rintro rfl
      cases hc
    rw [partLength, if_neg hne, isNameStart_of_isBlank hc, if_neg Bool.false_ne_true]

theorem partLength_bracket {p : List Char} (hp : ']' ∉ p) (r : List Char) :
    partLength ('[' :: (p ++ ']' :: r)) = if p = [] then 0 else p.length + 2 := by
  have hinner : (p ++ ']' :: r).takeWhile (· != ']') = p := by
    rw [List.takeWhile_append_of_pos fun c hc => by simpa using ne_of_mem_of_not_mem hc hp]
    simp
  simp [partLength, hinner]

theorem partLength_bracket_of_not_mem (h : ']' ∉ s) : partLength ('[' :: s) = 0 := by
  have hinner : s.takeWhile (· != ']') = s := by
    have hall : ∀ c ∈ s, (c != ']') = true := fun c hc => by simpa using ne_of_mem_of_not_mem hc h
    have hrun : (s ++ []).takeWhile (· != ']') = s ++ [].takeWhile (· != ']') :=
      List.takeWhile_append_of_pos hall
    simpa using hrun
  simp [partLength, hinner]

theorem drop_takeWhile_isBlank (s : List Char) :
    s.drop (s.takeWhile isBlank).length = s.dropWhile isBlank := by
  conv => lhs; arg 2; rw [← List.takeWhile_append_dropWhile (p := isBlank) (l := s)]
  exact List.drop_left

/-- A point and a part have the length of the point, of the blanks around it and of the part. -/
theorem dottedLength_of_dot {t : List Char} (h : s.dropWhile isBlank = '.' :: t) :
    dottedLength s = if partLength (t.dropWhile isBlank) = 0 then 0
      else (s.takeWhile isBlank).length + (1 + (t.takeWhile isBlank).length) +
        partLength (t.dropWhile isBlank) := by
  simp only [dottedLength, drop_takeWhile_isBlank, h]
  split <;> simp_all [Nat.add_assoc]

theorem dottedLength_of_no_dot (h : ∀ t, s.dropWhile isBlank ≠ '.' :: t) : dottedLength s = 0 := by
  rw [dottedLength, drop_takeWhile_isBlank]
  split
  · next t ht => exact absurd ht (h t)
  · rfl

theorem furtherLength_of_zero (h : dottedLength s = 0) : furtherLength s = 0 := by
  rw [furtherLength.eq_def]
  split
  · rfl
  · rw [h]

theorem furtherLength_of_ne_zero (h : dottedLength s ≠ 0) :
    furtherLength s = dottedLength s + furtherLength (s.drop (dottedLength s)) := by
  obtain ⟨n, hn⟩ := Nat.exists_eq_succ_of_ne_zero h
  rw [furtherLength.eq_def]
  split
  · exact absurd rfl h
  · rw [hn]
    rfl

end

/-! ## Lemmas: names -/

section
variable {g : Char → List Char} {s s' : List Char} (hg : Respaces g)
include hg

theorem respacedLength_eq_zero_iff (hs : s ≠ []) (n : Nat) : respacedLength g s n = 0 ↔ n = 0 := by
  rw [respacedLength, List.length_eq_zero_iff, hg.flatMap_eq_nil_iff, List.take_eq_nil_iff]
  exact or_iff_left hs

theorem respacedLength_cons {c : Char} (hc : isBlank c = false) (n : Nat) :
    respacedLength g (c :: s) (1 + n) = 1 + respacedLength g s n := by
  rw [respacedLength, Nat.add_comm 1 n, List.take_succ_cons, List.flatMap_cons, hg.keeps c hc,
    List.length_append, List.length_singleton, respacedLength]

theorem takeWhile_isNamePart_respaced (h : Respaced g s s') :
    s'.takeWhile isNamePart = s.takeWhile isNamePart := by
  have hno : ∀ t : List Char, (∀ c ∈ t.head?, isBlank c = true) → t.takeWhile isNamePart = [] := by
    intro t ht
    cases t with
    | nil => rfl
    | cons c t =>
      exact List.takeWhile_cons_of_neg (by simp [isNamePart_of_isBlank (ht c rfl)])
  induction s generalizing s' with
  | nil =>
    refine hno s' fun c hc => ?_
    exact List.all_eq_true.1 h.of_nil c (List.mem_of_mem_head? hc)
  | cons c t ih =>
    rcases h.head_cases hg with ⟨d, u, u', hu, rfl, -, hu'⟩ | ⟨hs, hs'⟩
    · obtain ⟨rfl, rfl⟩ := List.cons.inj hu
      rw [List.takeWhile_cons, List.takeWhile_cons, ih hu']
    · rw [hno _ hs, hno _ hs']

theorem partLength_respaced (h : Respaced g s s') :
    partLength s' = respacedLength g s (partLength s) := by
  rcases h.head_cases hg with ⟨c, t, t', rfl, rfl, hc, ht⟩ | ⟨hs, hs'⟩
  · by_cases hbracket : c = '['
    · subst hbracket
      by_cases hmem : ']' ∈ t
      · obtain ⟨p, r, rfl, hp⟩ := List.eq_append_cons_of_mem hmem
        obtain ⟨e, he, rfl⟩ := ht
        have hflat : (p ++ ']' :: r).flatMap g ++ e = p.flatMap g ++ ']' :: (r.flatMap g ++ e) := by
          simp [hg.keeps ']' (by decide)]
        have hp' : ']' ∉ p.flatMap g := by rwa [hg.mem_flatMap_iff (by decide)]
        rw [hflat, partLength_bracket hp', partLength_bracket hp]
        by_cases hnil : p = []
        · rw [if_pos hnil, if_pos ((hg.flatMap_eq_nil_iff p).2 hnil)]
          rfl
        · rw [if_neg hnil, if_neg fun h => hnil ((hg.flatMap_eq_nil_iff p).1 h)]
          have htake : ('[' :: (p ++ ']' :: r)).take (p.length + 2) = '[' :: p ++ [']'] := by
            simp [List.take_append, List.take_of_length_le]
          rw [respacedLength, htake]
          simp [hg.keeps '[' (by decide), hg.keeps ']' (by decide)]
      · have hmem' : ']' ∉ t' := by
          obtain ⟨e, he, rfl⟩ := ht
          rw [List.mem_append, hg.mem_flatMap_iff (by decide)]
          rintro (h | h)
          · exact hmem h
          · cases List.all_eq_true.1 he _ h
        rw [partLength_bracket_of_not_mem hmem', partLength_bracket_of_not_mem hmem]
        rfl
    · rw [partLength, partLength, if_neg hbracket, if_neg hbracket,
        takeWhile_isNamePart_respaced hg ht]
      split
      · have hblank : ∀ d ∈ t.takeWhile isNamePart, isBlank d = false := by
          intro d hd
          cases hb : isBlank d with
          | false => rfl
          | true =>
            have := List.all_eq_true.1 List.all_takeWhile d hd
            rw [isNamePart_of_isBlank hb] at this
            cases this
        rw [respacedLength_cons hg hc, respacedLength_takeWhile, hg.flatMap_of_nonblank hblank]
      · rfl
  · rw [partLength_of_blank hs, partLength_of_blank hs']
    rfl

theorem takeWhile_isBlank_respaced (h : Respaced g s s') (hs : isAllBlank s = false) :
    s'.takeWhile isBlank = (s.takeWhile isBlank).flatMap g := by
  obtain ⟨a, c, t, rfl, ha, hc⟩ := exists_nonblank hs
  obtain ⟨e, -, rfl⟩ := h
  have hflat : (a ++ c :: t).flatMap g ++ e = a.flatMap g ++ c :: (t.flatMap g ++ e) := by
    simp [hg.keeps c hc]
  rw [hflat, takeWhile_isBlank_of_nonblank ((hg.isAllBlank_flatMap a).trans ha) hc,
    takeWhile_isBlank_of_nonblank ha hc]

theorem dottedLength_respaced (h : Respaced g s s') :
    dottedLength s' = respacedLength g s (dottedLength s) := by
  have hdrop := h.dropWhile hg
  by_cases hdot : ∃ t, s.dropWhile isBlank = '.' :: t
  · obtain ⟨t, ht⟩ := hdot
    rw [ht] at hdrop
    obtain ⟨t', ht', hrest⟩ := hdrop.of_nonblank hg (by decide)
    have hpart := partLength_respaced hg (hrest.dropWhile hg)
    rw [dottedLength_of_dot ht, dottedLength_of_dot ht', hpart]
    by_cases hzero : partLength (t.dropWhile isBlank) = 0
    · rw [if_pos hzero, hzero]
      rfl
    · have hne : t.dropWhile isBlank ≠ [] := by
        intro hnil
        rw [hnil] at hzero
        exact hzero rfl
      have ht₀ : isAllBlank t = false := by
        rw [Bool.eq_false_iff]
        exact fun hall => hne (dropWhile_isBlank_of_all hall)
      have hs₀ : isAllBlank s = false := by
        rw [Bool.eq_false_iff]
        intro hall
        rw [dropWhile_isBlank_of_all hall] at ht
        cases ht
      rw [if_neg hzero, if_neg fun h => hzero ((respacedLength_eq_zero_iff hg hne _).1 h),
        takeWhile_isBlank_respaced hg h hs₀, takeWhile_isBlank_respaced hg hrest ht₀,
        respacedLength_add, respacedLength_add, respacedLength_takeWhile, ← List.drop_drop,
        drop_takeWhile_isBlank, ht, respacedLength_cons hg (by decide), respacedLength_takeWhile,
        Nat.add_comm 1 (t.takeWhile isBlank).length, List.drop_succ_cons, drop_takeWhile_isBlank]
  · have hno : ∀ t, s.dropWhile isBlank ≠ '.' :: t := fun t ht => hdot ⟨t, ht⟩
    rw [dottedLength_of_no_dot hno, dottedLength_of_no_dot (h.ne_dot hg hno)]
    rfl

theorem furtherLength_respaced (h : Respaced g s s') :
    furtherLength s' = respacedLength g s (furtherLength s) := by
  induction hn : s.length using Nat.strongRecOn generalizing s s' with
  | _ n ih =>
    subst hn
    have hdotted := dottedLength_respaced hg h
    by_cases hzero : dottedLength s = 0
    · rw [hzero] at hdotted
      rw [furtherLength_of_zero hzero, furtherLength_of_zero hdotted]
      rfl
    · have hne : s ≠ [] := by
        rintro rfl
        exact hzero rfl
      have hlt : (s.drop (dottedLength s)).length < s.length := by
        have := List.length_pos_iff.2 hne
        rw [List.length_drop]
        omega
      have hne' : dottedLength s' ≠ 0 := by
        rw [hdotted]
        exact fun h => hzero ((respacedLength_eq_zero_iff hg hne _).1 h)
      rw [furtherLength_of_ne_zero hzero, furtherLength_of_ne_zero hne', hdotted, respacedLength_add,
        ih _ hlt (h.drop _) rfl]

theorem name?_respaced (h : Respaced g s s') :
    name? s' = (name? s).map (·.flatMap g) := by
  rw [name?, name?, partLength_respaced hg h]
  cases hp : partLength s with
  | zero => rfl
  | succ n =>
    have hne : s ≠ [] := by
      rintro rfl
      cases hp
    cases hp' : respacedLength g s (n + 1) with
    | zero => exact absurd ((respacedLength_eq_zero_iff hg hne _).1 hp') (Nat.succ_ne_zero n)
    | succ m =>
      have hrest := h.drop (n + 1)
      rw [hp'] at hrest
      have hlength : m + 1 + furtherLength (s'.drop (m + 1)) =
          respacedLength g s (n + 1 + furtherLength (s.drop (n + 1))) := by
        rw [respacedLength_add, ← furtherLength_respaced hg hrest, hp']
      simp only [hlength, h.take, Option.map_some]

omit hg in
theorem tightenDots_of_dot {t : List Char} (h : s.dropWhile isBlank = '.' :: t) :
    tightenDots s = '.' :: tightenDots (t.dropWhile isBlank) := by
  cases s with
  | nil => cases h
  | cons c s =>
    rw [tightenDots.eq_def]
    simp only
    split
    · next u hu =>
      rw [hu] at h
      rw [(List.cons.inj h).2]
    · next hno => exact absurd h (hno t)

omit hg in
theorem tightenDots_of_no_dot {c : Char} (h : ∀ t, (c :: s).dropWhile isBlank ≠ '.' :: t) :
    tightenDots (c :: s) = c :: tightenDots s := by
  rw [tightenDots.eq_def]
  simp only

omit hg in
/-- Blanks that no point follows stay. -/
theorem tightenDots_append {b : List Char} (hb : isAllBlank b = true) (s : List Char)
    (hdot : ∀ t, s.dropWhile isBlank ≠ '.' :: t) : tightenDots (b ++ s) = b ++ tightenDots s := by
  induction b with
  | nil => rfl
  | cons c b ih =>
    rw [isAllBlank_cons, Bool.and_eq_true] at hb
    rw [List.cons_append, tightenDots_of_no_dot, ih hb.2, List.cons_append]
    rw [List.dropWhile_cons_of_pos hb.1, dropWhile_isBlank_append hb.2]
    exact hdot

/-- The points of a name lose the blanks around them before a change of blanks or after it. -/
theorem tightenDots_flatMap (s : List Char) :
    tightenDots (s.flatMap g) = (tightenDots s).flatMap g := by
  have hflat : ∀ t : List Char, Respaced g t (t.flatMap g) := fun t => ⟨[], rfl, by simp⟩
  induction s using tightenDots.induct with
  | case1 => rw [List.flatMap_nil, tightenDots.eq_def, List.flatMap_nil]
  | case2 c s t ht ih =>
    have ht' : ((c :: s).flatMap g).dropWhile isBlank = '.' :: t.flatMap g := by
      rw [hg.dropWhile_flatMap, ht, List.flatMap_cons, hg.keeps '.' (by decide)]
      rfl
    rw [tightenDots_of_dot ht, tightenDots_of_dot ht', hg.dropWhile_flatMap, ih, List.flatMap_cons,
      hg.keeps '.' (by decide)]
    rfl
  | case3 c s hdot ih =>
    have hdot' := (hflat (c :: s)).ne_dot hg hdot
    rw [tightenDots_of_no_dot hdot, List.flatMap_cons, List.flatMap_cons, ← ih]
    cases hc : isBlank c with
    | true =>
      rw [List.dropWhile_cons_of_pos hc] at hdot
      exact tightenDots_append (hg.isAllBlank c hc) _ ((hflat s).ne_dot hg hdot)
    | false =>
      rw [List.flatMap_cons, hg.keeps c hc] at hdot'
      rw [hg.keeps c hc]
      exact tightenDots_of_no_dot hdot'

end

end RoutineParams
