import RoutineParams.Proofs.NameBlanks

/-!
# Headers and blanks

The header of a text is told by what is no blank in it: it is found again after a change of blanks,
with its name changed alike, and blanks at the ends of the text are nothing to it. One step of the
reading after the other comes to the same place in both texts.

    Respaced g s s' → headerFrom? w s' = (headerFrom? w s).map (·.respace g)       (headerFrom?_respaced)
    headerFrom? false (trimBlank s) = headerFrom? false s                          (headerFrom?_trimBlank)
-/

namespace RoutineParams

/-- The header with its name changed. -/
def Header.respace (g : Char → List Char) (h : Header) : Header :=
  ⟨h.kind, String.ofList (h.name.toList.flatMap g)⟩

/-! ## Lemmas: words -/

theorem rel_bind {α β : Type} {r : α → α → Prop} {q : β → β → Prop} {x x' : Option α}
    {k : α → Option β} (h : Option.Rel r x x') (hk : ∀ a a', r a a' → Option.Rel q (k a) (k a')) :
    Option.Rel q (x.bind k) (x'.bind k) := by
  cases h with
  | none => exact .none
  | some h => exact hk _ _ h

theorem rel_getD {α : Type} {r : α → α → Prop} {x x' : Option α} {a a' : α} (ha : r a a')
    (h : Option.Rel r x x') : r (x.getD a) (x'.getD a') := by
  cases h with
  | none => exact ha
  | some h => exact h

section
variable {g : Char → List Char} (hg : Respaces g) {s s' : List Char}
include hg

/-- A word without blanks is found before and after a change of blanks. -/
theorem afterWord?_respaced {w : List Char} (hw : w.all (!isBlank ·) = true)
    (h : Respaced g s s') :
    Option.Rel (Respaced g) (afterWord? w s) (afterWord? w s') := by
  induction w generalizing s s' with
  | nil => exact .some h
  | cons a w ih =>
    simp only [List.all_cons, Bool.and_eq_true, Bool.not_eq_true'] at hw
    -- a blank is no first character of a word
    have hno : ∀ t : List Char, (∀ c ∈ t.head?, isBlank c = true) → afterWord? (a :: w) t = none := by
      intro t ht
      cases t with
      | nil => rfl
      | cons c t =>
        have hc := ht c rfl
        refine if_neg fun hca => ?_
        rw [← hca, toUpper_of_isBlank hc, hc] at hw
        cases hw.1
    rcases h.head_cases hg with ⟨c, t, t', rfl, rfl, -, ht⟩ | ⟨hs, hs'⟩
    · rw [afterWord?, afterWord?]
      split
      · exact ih hw.2 ht
      · exact .none
    · rw [hno s hs, hno s' hs']
      exact .none

/-- What is done after blanks and fails on the empty text. -/
theorem bind_afterBlanks?_respaced {α : Type} {r : α → α → Prop} {k : List Char → Option α}
    (hnil : k [] = none) (hk : ∀ t t', Respaced g t t' → Option.Rel r (k t) (k t'))
    (h : Respaced g s s') :
    Option.Rel r ((afterBlanks? s).bind k) ((afterBlanks? s').bind k) := by
  have hno : ∀ {t : List Char} {c : Char}, isBlank c = false → afterBlanks? (c :: t) = none := by
    intro t c hc
    rw [afterBlanks?, if_neg (by simp [hc])]
  cases s with
  | nil =>
    cases s' with
    | nil => exact .none
    | cons d t' =>
      have hall := h.of_nil
      rw [isAllBlank_cons, Bool.and_eq_true] at hall
      have hafter : afterBlanks? (d :: t') = some [] := by
        rw [afterBlanks?, if_pos hall.1, dropWhile_isBlank_of_all hall.2]
      rw [hafter, Option.bind_some, hnil]
      exact .none
  | cons c t =>
    cases hc : isBlank c with
    | true =>
      have hdrop := h.dropWhile hg
      obtain ⟨d, t', rfl, hd⟩ := h.of_blank hg hc
      rw [List.dropWhile_cons_of_pos hc, List.dropWhile_cons_of_pos hd] at hdrop
      rw [afterBlanks?, if_pos hc, afterBlanks?, if_pos hd]
      exact hk _ _ hdrop
    | false =>
      obtain ⟨t', rfl, ht⟩ := h.of_nonblank hg hc
      rw [hno hc, hno hc]
      exact .none

theorem afterVerb?_respaced (h : Respaced g s s') :
    Option.Rel (Respaced g) (afterVerb? s) (afterVerb? s') := by
  have hcreate := afterWord?_respaced hg (w := ['C', 'R', 'E', 'A', 'T', 'E']) (by decide) h
  rw [afterVerb?, afterVerb?]
  generalize afterWord? ['C', 'R', 'E', 'A', 'T', 'E'] s = x,
    afterWord? ['C', 'R', 'E', 'A', 'T', 'E'] s' = x' at hcreate ⊢
  cases hcreate with
  | none => exact afterWord?_respaced hg (by decide) h
  | some ht =>
    refine .some (rel_getD ht ?_)
    refine bind_afterBlanks?_respaced hg rfl (fun u u' hu => ?_) ht
    refine rel_bind (afterWord?_respaced hg (by decide) hu) fun v v' hv => ?_
    refine bind_afterBlanks?_respaced hg rfl (fun w w' hw => ?_) hv
    exact afterWord?_respaced hg (by decide) hw

theorem afterKind?_respaced (h : Respaced g s s') :
    Option.Rel (fun k k' => k.1 = k'.1 ∧ Respaced g k.2 k'.2) (afterKind? s) (afterKind? s') := by
  have hproc := afterWord?_respaced hg (w := ['P', 'R', 'O', 'C']) (by decide) h
  rw [afterKind?, afterKind?]
  generalize afterWord? ['P', 'R', 'O', 'C'] s = x, afterWord? ['P', 'R', 'O', 'C'] s' = x'
    at hproc ⊢
  cases hproc with
  | none =>
    rw [Option.map_eq_bind, Option.map_eq_bind]
    exact rel_bind (afterWord?_respaced hg (by decide) h) fun t t' ht => .some ⟨rfl, ht⟩
  | some ht => exact .some ⟨rfl, rel_getD ht (afterWord?_respaced hg (by decide) ht)⟩

end

/-! ## Lemmas: headers -/

section
variable {g : Char → List Char} {s s' : List Char} (hg : Respaces g)
include hg

theorem headerAt?_respaced (h : Respaced g s s') :
    headerAt? s' = (headerAt? s).map (·.respace g) := by
  have hname : ∀ kind : RoutineKind, ∀ t t', Respaced g t t' →
      Option.Rel (fun h h' : Header => h' = h.respace g)
        ((name? t).bind fun n => some ⟨kind, String.ofList (tightenDots n)⟩)
        ((name? t').bind fun n => some ⟨kind, String.ofList (tightenDots n)⟩) := by
    intro kind t t' ht
    rw [name?_respaced hg ht]
    cases name? t with
    | none => exact .none
    | some n => exact .some (by simp [Header.respace, tightenDots_flatMap hg])
  have hrel : Option.Rel (fun h h' : Header => h' = h.respace g) (headerAt? s) (headerAt? s') := by
    refine rel_bind (afterVerb?_respaced hg h) fun t t' ht => ?_
    refine bind_afterBlanks?_respaced hg rfl (fun u u' hu => ?_) ht
    refine rel_bind (afterKind?_respaced hg hu) fun ⟨kind, v⟩ ⟨kind', v'⟩ hv => ?_
    obtain ⟨rfl, hv⟩ := hv
    exact bind_afterBlanks?_respaced hg rfl (hname _) hv
  generalize headerAt? s = x, headerAt? s' = x' at hrel ⊢
  cases hrel with
  | none => rfl
  | some h => rw [h]; rfl

end

theorem headerAt?_of_blank {c : Char} (hc : isBlank c = true) (s : List Char) :
    headerAt? (c :: s) = none := by
  have hne : ∀ a w, isBlank a = false → afterWord? (a :: w) (c :: s) = none := by
    intro a w ha
    refine if_neg fun hca => ?_
    rw [toUpper_of_isBlank hc] at hca
    rw [← hca, hc] at ha
    cases ha
  have hverb : afterVerb? (c :: s) = none := by
    rw [afterVerb?, hne 'C' _ (by decide), hne 'A' _ (by decide)]
  rw [headerAt?, hverb]
  rfl

/-- A header does not start at a blank, and after one a word may start. -/
theorem headerFrom?_cons_of_blank {c : Char} (hc : isBlank c = true) (inWord : Bool)
    (s : List Char) : headerFrom? inWord (c :: s) = headerFrom? false s := by
  rw [headerFrom?, headerAt?_of_blank hc, isWordChar_of_isBlank hc, ite_self]

theorem headerFrom?_append_of_blank {b : List Char} (hb : isAllBlank b = true) (s : List Char) :
    headerFrom? false (b ++ s) = headerFrom? false s := by
  induction b with
  | nil => rfl
  | cons c b ih =>
    rw [isAllBlank_cons, Bool.and_eq_true] at hb
    rw [List.cons_append, headerFrom?_cons_of_blank hb.1, ih hb.2]

theorem headerFrom?_of_isAllBlank {s : List Char} (hs : isAllBlank s = true) (inWord : Bool) :
    headerFrom? inWord s = none := by
  cases s with
  | nil => rfl
  | cons c s =>
    rw [isAllBlank_cons, Bool.and_eq_true] at hs
    have hempty := headerFrom?_append_of_blank hs.2 []
    rw [List.append_nil] at hempty
    rw [headerFrom?_cons_of_blank hs.1, hempty]
    rfl

/-! ## Top theorems (proved from the lemmas above) -/

/-- **A change of blanks** changes the name in a header alike, and no other header is found. -/
theorem headerFrom?_respaced {g : Char → List Char} (hg : Respaces g) {s s' : List Char}
    (h : Respaced g s s') (inWord : Bool) :
    headerFrom? inWord s' = (headerFrom? inWord s).map (·.respace g) := by
  induction s generalizing s' inWord with
  | nil => rw [headerFrom?_of_isAllBlank h.of_nil]; rfl
  | cons c t ih =>
    cases hc : isBlank c with
    | true =>
      obtain ⟨e, he, rfl⟩ := h
      obtain ⟨d, b, hb⟩ := List.exists_cons_of_ne_nil (hg.ne_nil c)
      have hblank := hg.isAllBlank c hc
      rw [hb, isAllBlank_cons, Bool.and_eq_true] at hblank
      rw [List.flatMap_cons, hb, List.cons_append, List.cons_append,
        headerFrom?_cons_of_blank hblank.1, headerFrom?_cons_of_blank hc, List.append_assoc,
        headerFrom?_append_of_blank hblank.2]
      exact ih ⟨e, he, rfl⟩ false
    | false =>
      obtain ⟨t', rfl, ht⟩ := h.of_nonblank hg hc
      rw [headerFrom?, headerFrom?, headerAt?_respaced hg h]
      cases inWord with
      | true => exact ih ht _
      | false =>
        cases headerAt? (c :: t) with
        | none => exact ih ht _
        | some h => rfl

/-- **The blanks at the ends of a text** are nothing to its header. -/
theorem headerFrom?_trimBlank (s : List Char) :
    headerFrom? false (trimBlank s) = headerFrom? false s := by
  obtain ⟨a, b, hs, ha, hb⟩ := exists_trimBlank s
  have hsame : ∀ h : Header, h.respace (fun c => [c]) = h := by simp [Header.respace]
  conv => rhs; rw [hs]
  rw [headerFrom?_append_of_blank ha,
    headerFrom?_respaced Respaces.singleton (Respaced.refl_append hb (trimBlank s))]
  simp [hsame]

end RoutineParams
