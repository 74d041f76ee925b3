import RoutineParams.Proofs.Headers

/-!
# The openings of headers

What stands before the name in a header: a verb and a word for the kind, in any case, with blanks
between and behind them. A text has one opening at most, since no blank is left behind it.

    afterOpening? s = some (kind, r) ↔ s = o ++ r for an opening o of the kind
                                                                       (afterOpening?_eq_some_iff)
-/

namespace RoutineParams

/-! ## What is written -/

/-- At least one blank, and nothing else. -/
def IsSpace (b : List Char) : Prop := b ≠ [] ∧ isAllBlank b = true

/-- `CREATE`, `ALTER` or `CREATE OR ALTER`, in any case and with any blanks between. -/
inductive IsVerb : List Char → Prop
  | create {v : List Char} : v.map Char.toUpper = ['C', 'R', 'E', 'A', 'T', 'E'] → IsVerb v
  | alter {v : List Char} : v.map Char.toUpper = ['A', 'L', 'T', 'E', 'R'] → IsVerb v
  | createOrAlter {v a o b w : List Char} :
      v.map Char.toUpper = ['C', 'R', 'E', 'A', 'T', 'E'] → IsSpace a →
      o.map Char.toUpper = ['O', 'R'] → IsSpace b →
      w.map Char.toUpper = ['A', 'L', 'T', 'E', 'R'] → IsVerb (v ++ (a ++ (o ++ (b ++ w))))

/-- A word for a kind of routine, in any case. -/
inductive IsKindWord : RoutineKind → List Char → Prop
  | proc {w : List Char} : w.map Char.toUpper = ['P', 'R', 'O', 'C'] → IsKindWord .procedure w
  | procedure {w : List Char} :
      w.map Char.toUpper = ['P', 'R', 'O', 'C', 'E', 'D', 'U', 'R', 'E'] →
        IsKindWord .procedure w
  | function {w : List Char} :
      w.map Char.toUpper = ['F', 'U', 'N', 'C', 'T', 'I', 'O', 'N'] → IsKindWord .function w

/-- What comes before the name in a header. -/
inductive IsOpening : RoutineKind → List Char → Prop
  | mk {kind : RoutineKind} {v a w b : List Char} :
      IsVerb v → IsSpace a → IsKindWord kind w → IsSpace b → IsOpening kind (v ++ (a ++ (w ++ b)))

/-- The kind that the opening at the front tells, and the text after it. -/
def afterOpening? (s : List Char) : Option (RoutineKind × List Char) :=
  (afterVerb? s).bind fun s => (afterBlanks? s).bind fun s => (afterKind? s).bind fun p =>
    (afterBlanks? p.2).map fun s => (p.1, s)

/-! ## Lemmas: words and blanks -/

theorem afterWord?_append {w v : List Char} (h : v.map Char.toUpper = w) (r : List Char) :
    afterWord? w (v ++ r) = some r := by
  induction v generalizing w with
  | nil => obtain rfl := h; rfl
  | cons c v ih =>
    obtain rfl := h
    rw [List.cons_append, List.map_cons, afterWord?, if_pos rfl]
    exact ih rfl

theorem exists_of_afterWord? {w s r : List Char} (h : afterWord? w s = some r) :
    ∃ v, v.map Char.toUpper = w ∧ s = v ++ r := by
  induction w generalizing s with
  | nil =>
    obtain rfl := Option.some.inj h
    exact ⟨[], rfl, rfl⟩
  | cons a w ih =>
    cases s with
    | nil => cases h
    | cons c s =>
      rw [afterWord?] at h
      split at h
      · next hc =>
        obtain ⟨v, rfl, rfl⟩ := ih h
        exact ⟨c :: v, by rw [List.map_cons, hc], rfl⟩
      · cases h

/-- A word is not found where the text starts otherwise. -/
theorem afterWord?_of_head? {a : Char} {w s : List Char} (h : ∀ c ∈ s.head?, c.toUpper ≠ a) :
    afterWord? (a :: w) s = none := by
  cases s with
  | nil => rfl
  | cons c s => exact if_neg (h c rfl)

theorem IsSpace.exists_cons {b : List Char} (hb : IsSpace b) :
    ∃ c t, b = c :: t ∧ isBlank c = true ∧ isAllBlank t = true := by
  obtain ⟨c, t, rfl⟩ := List.exists_cons_of_ne_nil hb.1
  have hall := hb.2
  rw [isAllBlank_cons, Bool.and_eq_true] at hall
  exact ⟨c, t, rfl, hall⟩

theorem afterBlanks?_append {b r : List Char} (hb : IsSpace b)
    (hr : ∀ c ∈ r.head?, isBlank c = false) : afterBlanks? (b ++ r) = some r := by
  obtain ⟨c, t, rfl, hc, ht⟩ := hb.exists_cons
  rw [List.cons_append, afterBlanks?, if_pos hc, dropWhile_isBlank_append ht,
    dropWhile_isBlank_of_head? hr]

theorem head?_dropWhile_isBlank (s : List Char) :
    ∀ c ∈ (s.dropWhile isBlank).head?, isBlank c = false := by
  intro c hc
  have hnot := List.head?_dropWhile_not isBlank s
  rw [Option.mem_def] at hc
  rw [hc] at hnot
  simpa using hnot

theorem exists_of_afterBlanks? {s r : List Char} (h : afterBlanks? s = some r) :
    ∃ b, IsSpace b ∧ s = b ++ r ∧ ∀ c ∈ r.head?, isBlank c = false := by
  cases s with
  | nil => cases h
  | cons c s =>
    rw [afterBlanks?] at h
    split at h
    · next hc =>
      obtain rfl := Option.some.inj h
      refine ⟨c :: s.takeWhile isBlank, ⟨List.cons_ne_nil _ _, ?_⟩, ?_, head?_dropWhile_isBlank s⟩
      · rw [isAllBlank_cons, hc, Bool.true_and]
        exact List.all_takeWhile
      · rw [List.cons_append, List.takeWhile_append_dropWhile]
    · cases h

/-- The first letter of a word. -/
theorem head?_append_of_map {v w : List Char} {a : Char} (h : v.map Char.toUpper = a :: w)
    (r : List Char) : ∀ c ∈ (v ++ r).head?, c.toUpper = a := by
  cases v with
  | nil => cases h
  | cons d v =>
    intro c hc
    obtain rfl := Option.some.inj hc
    exact (List.cons.inj h).1

theorem isBlank_of_toUpper {c a : Char} (h : c.toUpper = a) (ha : isBlank a = false) :
    isBlank c = false := by
  cases hc : isBlank c with
  | false => rfl
  | true =>
    rw [toUpper_of_isBlank hc] at h
    rw [← h, hc] at ha
    cases ha

theorem isBlank_head?_of_map {v w : List Char} {a : Char} (h : v.map Char.toUpper = a :: w)
    (ha : isBlank a = false) (r : List Char) : ∀ c ∈ (v ++ r).head?, isBlank c = false :=
  fun c hc => isBlank_of_toUpper (head?_append_of_map h r c hc) ha

/-! ## Lemmas: openings -/

theorem IsKindWord.head? {kind : RoutineKind} {w : List Char} (hw : IsKindWord kind w)
    (r : List Char) : ∀ c ∈ (w ++ r).head?, c.toUpper = 'P' ∨ c.toUpper = 'F' := by
  intro c hc
  cases hw with
  | proc h => exact .inl (head?_append_of_map h r c hc)
  | procedure h => exact .inl (head?_append_of_map h r c hc)
  | function h => exact .inr (head?_append_of_map h r c hc)

theorem IsKindWord.isBlank_head? {kind : RoutineKind} {w : List Char} (hw : IsKindWord kind w)
    (r : List Char) : ∀ c ∈ (w ++ r).head?, isBlank c = false := by
  intro c hc
  rcases hw.head? r c hc with h | h
  · exact isBlank_of_toUpper h (by decide)
  · exact isBlank_of_toUpper h (by decide)

theorem afterVerb?_append {v b r : List Char} (hv : IsVerb v) (hb : IsSpace b)
    (hblank : ∀ c ∈ r.head?, isBlank c = false) (hor : ∀ c ∈ r.head?, c.toUpper ≠ 'O') :
    afterVerb? (v ++ (b ++ r)) = some (b ++ r) := by
  rw [afterVerb?]
  cases hv with
  | create h =>
    rw [afterWord?_append h]
    simp [afterBlanks?_append hb hblank, afterWord?_of_head? hor]
  | alter h =>
    have hc : ∀ c ∈ (v ++ (b ++ r)).head?, c.toUpper ≠ 'C' := by
      intro c hc
      rw [head?_append_of_map h _ c hc]
      decide
    rw [afterWord?_of_head? hc]
    exact afterWord?_append h _
  | @createOrAlter v a o a' w h ha ho ha' hw =>
    simp only [List.append_assoc]
    rw [afterWord?_append h]
    simp only [afterBlanks?_append ha (isBlank_head?_of_map ho (by decide) _),
      afterBlanks?_append ha' (isBlank_head?_of_map hw (by decide) _), afterWord?_append ho,
      afterWord?_append hw, Option.bind_eq_bind, Option.bind_some, Option.getD_some]

theorem exists_of_afterVerb? {s r : List Char} (h : afterVerb? s = some r) :
    ∃ v, IsVerb v ∧ s = v ++ r := by
  rw [afterVerb?] at h
  cases hcreate : afterWord? ['C', 'R', 'E', 'A', 'T', 'E'] s with
  | none =>
    rw [hcreate] at h
    obtain ⟨v, hv, rfl⟩ := exists_of_afterWord? h
    exact ⟨v, .alter hv, rfl⟩
  | some t =>
    obtain ⟨v, hv, rfl⟩ := exists_of_afterWord? hcreate
    rw [hcreate] at h
    simp only [Option.bind_eq_bind, Option.some.injEq] at h
    generalize hlonger : ((afterBlanks? t).bind fun t => (afterWord? ['O', 'R'] t).bind fun t =>
      (afterBlanks? t).bind fun t => afterWord? ['A', 'L', 'T', 'E', 'R'] t) = longer at h
    cases longer with
    | none =>
      obtain rfl := h
      exact ⟨v, .create hv, rfl⟩
    | some u =>
      obtain rfl : u = r := h
      obtain ⟨t₁, h₁, hlonger⟩ := Option.bind_eq_some_iff.1 hlonger
      obtain ⟨t₂, h₂, hlonger⟩ := Option.bind_eq_some_iff.1 hlonger
      obtain ⟨t₃, h₃, h₄⟩ := Option.bind_eq_some_iff.1 hlonger
      obtain ⟨a, ha, rfl, -⟩ := exists_of_afterBlanks? h₁
      obtain ⟨o, ho, rfl⟩ := exists_of_afterWord? h₂
      obtain ⟨b, hb, rfl, -⟩ := exists_of_afterBlanks? h₃
      obtain ⟨w, hw, rfl⟩ := exists_of_afterWord? h₄
      exact ⟨_, .createOrAlter hv ha ho hb hw, by simp only [List.append_assoc]⟩

theorem afterKind?_of_head? {kind : RoutineKind} {w r : List Char} (hw : IsKindWord kind w)
    (hr : ∀ c ∈ r.head?, c.toUpper ≠ 'E') : afterKind? (w ++ r) = some (kind, r) := by
  rw [afterKind?]
  cases hw with
  | proc h =>
    rw [afterWord?_append h]
    simp only [afterWord?_of_head? hr, Option.getD_none]
  | procedure h =>
    -- the word in its two halves
    have hhalves := List.take_append_drop 4 w
    have htake : (w.take 4).map Char.toUpper = ['P', 'R', 'O', 'C'] := by
      rw [List.map_take, h]
      rfl
    have hdrop : (w.drop 4).map Char.toUpper = ['E', 'D', 'U', 'R', 'E'] := by
      rw [List.map_drop, h]
      rfl
    rw [← hhalves, List.append_assoc, afterWord?_append htake]
    simp only [afterWord?_append hdrop, Option.getD_some]
  | function h =>
    have hc : ∀ c ∈ (w ++ r).head?, c.toUpper ≠ 'P' := by
      intro c hc
      rw [head?_append_of_map h _ c hc]
      decide
    rw [afterWord?_of_head? hc, afterWord?_append h]
    rfl

theorem afterKind?_append {kind : RoutineKind} {w b : List Char} (hw : IsKindWord kind w)
    (hb : IsSpace b) (r : List Char) : afterKind? (w ++ (b ++ r)) = some (kind, b ++ r) := by
  refine afterKind?_of_head? hw ?_
  obtain ⟨c, t, rfl, hc, -⟩ := hb.exists_cons
  intro d hd hupper
  obtain rfl := Option.some.inj hd
  rw [isBlank_of_toUpper hupper (by decide)] at hc
  cases hc

theorem exists_of_afterKind? {kind : RoutineKind} {s r : List Char}
    (h : afterKind? s = some (kind, r)) : ∃ w, IsKindWord kind w ∧ s = w ++ r := by
  rw [afterKind?] at h
  cases hproc : afterWord? ['P', 'R', 'O', 'C'] s with
  | none =>
    rw [hproc] at h
    obtain ⟨t, ht, hpair⟩ := Option.map_eq_some_iff.1 h
    obtain ⟨rfl, rfl⟩ := Prod.mk.inj hpair
    obtain ⟨w, hw, rfl⟩ := exists_of_afterWord? ht
    exact ⟨w, .function hw, rfl⟩
  | some t =>
    obtain ⟨w, hw, rfl⟩ := exists_of_afterWord? hproc
    rw [hproc] at h
    obtain ⟨rfl, hr⟩ := Prod.mk.inj (Option.some.inj h)
    cases hedure : afterWord? ['E', 'D', 'U', 'R', 'E'] t with
    | none =>
      rw [hedure] at hr
      obtain rfl : t = r := hr
      exact ⟨w, .proc hw, rfl⟩
    | some u =>
      rw [hedure] at hr
      obtain rfl : u = r := hr
      obtain ⟨v, hv, rfl⟩ := exists_of_afterWord? hedure
      exact ⟨w ++ v, .procedure (by rw [List.map_append, hw, hv]; rfl), by rw [List.append_assoc]⟩

/-! ## Top theorem (proved from the lemmas above) -/

theorem afterOpening?_eq_some_iff {kind : RoutineKind} {s r : List Char} :
    afterOpening? s = some (kind, r) ↔
      ∃ o, IsOpening kind o ∧ s = o ++ r ∧ ∀ c ∈ r.head?, isBlank c = false := by
  constructor
  · intro h
    obtain ⟨t₁, h₁, h⟩ := Option.bind_eq_some_iff.1 h
    obtain ⟨t₂, h₂, h⟩ := Option.bind_eq_some_iff.1 h
    obtain ⟨⟨kind', t₃⟩, h₃, h⟩ := Option.bind_eq_some_iff.1 h
    obtain ⟨t₄, h₄, hpair⟩ := Option.map_eq_some_iff.1 h
    obtain ⟨rfl, rfl⟩ := Prod.mk.inj hpair
    obtain ⟨v, hv, rfl⟩ := exists_of_afterVerb? h₁
    obtain ⟨a, ha, rfl, -⟩ := exists_of_afterBlanks? h₂
    obtain ⟨w, hw, rfl⟩ := exists_of_afterKind? h₃
    obtain ⟨b, hb, hsplit, hr⟩ := exists_of_afterBlanks? h₄
    obtain rfl : t₃ = b ++ t₄ := hsplit
    exact ⟨_, .mk hv ha hw hb, by simp only [List.append_assoc], hr⟩
  · rintro ⟨o, ho, rfl, hr⟩
    obtain @⟨v, a, w, b, hv, ha, hw, hb⟩ := ho
    simp only [List.append_assoc]
    have hor : ∀ c ∈ (w ++ (b ++ r)).head?, c.toUpper ≠ 'O' := by
      intro c hc
      rcases hw.head? _ c hc with h | h <;> rw [h] <;> decide
    rw [afterOpening?, afterVerb?_append hv ha (hw.isBlank_head? _) hor, Option.bind_some,
      afterBlanks?_append ha (hw.isBlank_head? _), Option.bind_some, afterKind?_append hw hb,
      Option.bind_some, afterBlanks?_append hb hr]
    rfl

end RoutineParams
