import RoutineParams.Proofs.Headers
import RoutineParams.Proofs.Reading

/-!
# Written names

What a name is: parts with points between them, and blanks around the points. The name that is read
at the front of a text is the longest one there.

    IsPart p → partLength (p ++ r) = p.length where no character of a name follows
                                                                       (IsPart.partLength_append)
    name? s = some n ↔ n is the longest name at the front of s                  (name?_eq_some_iff)
-/

namespace RoutineParams

/-! ## What is written -/

/-- A part of a name: a text in brackets, or one that starts as a part may and goes on so. -/
inductive IsPart : List Char → Prop
  | bracketed {p : List Char} : p ≠ [] → ']' ∉ p → IsPart ('[' :: (p ++ [']']))
  | regular {c : Char} {p : List Char} :
      isNameStart c = true → (∀ d ∈ p, isNamePart d = true) → IsPart (c :: p)

/-- A name as it is written, and its parts: there are points between them, with blanks around. -/
inductive Spells : List (List Char) → List Char → Prop
  | last {p : List Char} : IsPart p → Spells [p] p
  | dotted {p a b n : List Char} {parts : List (List Char)} :
      IsPart p → isAllBlank a = true → isAllBlank b = true → Spells parts n →
        Spells (p :: parts) (p ++ (a ++ '.' :: (b ++ n)))

/-! ## Lemmas: parts of a name -/

theorem isNamePart_of_dot : isNamePart '.' = false := by decide

theorem IsPart.ne_nil {p : List Char} (hp : IsPart p) : p ≠ [] := by
  cases hp <;> simp

/-- A part starts with no blank and no point. -/
theorem IsPart.head? {p : List Char} (hp : IsPart p) (r : List Char) :
    ∀ c ∈ (p ++ r).head?, isBlank c = false ∧ c ≠ '.' := by
  intro c hc
  cases hp with
  | bracketed =>
    obtain rfl := Option.some.inj hc
    decide
  | @regular d p hd =>
    obtain rfl := Option.some.inj hc
    constructor
    · cases hblank : isBlank d with
      | false => rfl
      | true =>
        rw [isNameStart_of_isBlank hblank] at hd
        cases hd
    · rintro rfl
      cases hd

theorem partLength_regular {c : Char} (hc : isNameStart c = true) (s : List Char) :
    partLength (c :: s) = 1 + (s.takeWhile isNamePart).length := by
  have hne : c ≠ '[' := by
    rintro rfl
    cases hc
  rw [partLength, if_neg hne, if_pos hc]

/-- The whole of a part is read, -/
theorem IsPart.le_partLength {p : List Char} (hp : IsPart p) (r : List Char) :
    p.length ≤ partLength (p ++ r) := by
  cases hp with
  | @bracketed p hne hp =>
    rw [List.cons_append, List.append_assoc, List.singleton_append, partLength_bracket hp,
      if_neg hne]
    simp
  | @regular c p hc hp =>
    rw [List.cons_append, partLength_regular hc, List.takeWhile_append_of_pos hp]
    simp only [List.length_cons, List.length_append]
    omega

/-- and no more of it where no character of a name follows. -/
theorem IsPart.partLength_append {p r : List Char} (hp : IsPart p)
    (hr : ∀ c ∈ r.head?, isNamePart c = false) : partLength (p ++ r) = p.length := by
  cases hp with
  | @bracketed p hne hp =>
    rw [List.cons_append, List.append_assoc, List.singleton_append, partLength_bracket hp,
      if_neg hne]
    simp
  | @regular c p hc hp =>
    rw [List.cons_append, partLength_regular hc, takeWhile_append_stop hp hr, List.length_cons,
      Nat.add_comm]

theorem partLength_le (s : List Char) : partLength s ≤ s.length := by
  cases s with
  | nil => exact Nat.le_refl 0
  | cons c s =>
    have hinner := (List.takeWhile_prefix (· != ']') (l := s)).length_le
    have hrun := (List.takeWhile_prefix isNamePart (l := s)).length_le
    simp only [partLength, List.length_cons]
    split
    · split
      · exact Nat.zero_le _
      · next h =>
        rw [not_or] at h
        omega
    · split
      · omega
      · exact Nat.zero_le _

/-- What is read is a part. -/
theorem isPart_take {s : List Char} (h : partLength s ≠ 0) : IsPart (s.take (partLength s)) := by
  cases s with
  | nil => exact absurd rfl h
  | cons c s =>
    by_cases hbracket : c = '['
    · subst hbracket
      by_cases hmem : ']' ∈ s
      · obtain ⟨p, r, rfl, hp⟩ := List.eq_append_cons_of_mem hmem
        rw [partLength_bracket hp] at h ⊢
        by_cases hnil : p = []
        · exact absurd (if_pos hnil) h
        · have htake : ('[' :: (p ++ ']' :: r)).take (p.length + 2) = '[' :: (p ++ [']']) := by
            simp [List.take_append, List.take_of_length_le]
          rw [if_neg hnil, htake]
          exact .bracketed hnil hp
      · exact absurd (partLength_bracket_of_not_mem hmem) h
    · cases hc : isNameStart c with
      | false =>
        refine absurd ?_ h
        rw [partLength, if_neg hbracket, hc, if_neg Bool.false_ne_true]
      | true =>
        rw [partLength_regular hc, Nat.add_comm, List.take_succ_cons,
          ← List.prefix_iff_eq_take.1 (List.takeWhile_prefix isNamePart)]
        exact .regular hc (List.all_eq_true.1 List.all_takeWhile)

/-! ## Lemmas: names -/

/-- How many characters at the front make up a name. -/
def nameLength (s : List Char) : Nat := partLength s + furtherLength (s.drop (partLength s))

theorem name?_eq (s : List Char) :
    name? s = if partLength s = 0 then none else some (s.take (nameLength s)) := by
  rw [name?, nameLength]
  cases partLength s with
  | zero => rfl
  | succ n => rfl

theorem takeWhile_isBlank_append {a r : List Char} (ha : isAllBlank a = true)
    (hr : ∀ c ∈ r.head?, isBlank c = false) : (a ++ r).takeWhile isBlank = a :=
  takeWhile_append_stop (List.all_eq_true.1 ha) hr

theorem dropWhile_isBlank_append_stop {a r : List Char} (ha : isAllBlank a = true)
    (hr : ∀ c ∈ r.head?, isBlank c = false) : (a ++ r).dropWhile isBlank = r := by
  rw [dropWhile_isBlank_append ha, dropWhile_isBlank_of_head? hr]

theorem isBlank_head?_of_partLength {t : List Char} (ht : partLength t ≠ 0) :
    ∀ c ∈ t.head?, isBlank c = false := by
  have hpart := isPart_take ht
  intro c hc
  rw [← List.take_append_drop (partLength t) t] at hc
  exact (hpart.head? _ c hc).1

/-- After a part and a point the name goes on with what is a name there. -/
theorem nameLength_dotted {p a b t : List Char} (hp : IsPart p) (ha : isAllBlank a = true)
    (hb : isAllBlank b = true) (ht : partLength t ≠ 0) :
    nameLength (p ++ (a ++ '.' :: (b ++ t))) = p.length + (a.length + (1 + b.length)) +
      nameLength t := by
  have hstop : ∀ c ∈ (a ++ '.' :: (b ++ t)).head?, isNamePart c = false := by
    intro c hc
    cases a with
    | nil =>
      obtain rfl := Option.some.inj hc
      exact isNamePart_of_dot
    | cons d a =>
      obtain rfl := Option.some.inj hc
      rw [isAllBlank_cons, Bool.and_eq_true] at ha
      exact isNamePart_of_isBlank ha.1
  have hdot : ∀ c ∈ ('.' :: (b ++ t)).head?, isBlank c = false := by
    intro c hc
    obtain rfl := Option.some.inj hc
    decide
  have hblank := isBlank_head?_of_partLength ht
  have hdotted : dottedLength (a ++ '.' :: (b ++ t)) =
      a.length + (1 + b.length) + partLength t := by
    rw [dottedLength_of_dot (dropWhile_isBlank_append_stop ha hdot),
      dropWhile_isBlank_append_stop hb hblank, if_neg ht, takeWhile_isBlank_append ha hdot,
      takeWhile_isBlank_append hb hblank]
  have hdrop : (a ++ '.' :: (b ++ t)).drop (a.length + (1 + b.length) + partLength t) =
      t.drop (partLength t) := by
    rw [← List.drop_drop, ← List.drop_drop, List.drop_left, Nat.add_comm 1, List.drop_succ_cons,
      List.drop_left]
  rw [nameLength, hp.partLength_append hstop, List.drop_left,
    furtherLength_of_ne_zero (by rw [hdotted]; omega), hdotted, hdrop, nameLength]
  omega

/-- A name of one part, where no point and no character of a name follow. -/
theorem nameLength_last {p r : List Char} (hp : IsPart p)
    (hr : ∀ c ∈ r.head?, isNamePart c = false) (hdot : dottedLength r = 0) :
    nameLength (p ++ r) = p.length := by
  rw [nameLength, hp.partLength_append hr, List.drop_left, furtherLength_of_zero hdot,
    Nat.add_zero]

theorem Spells.partLength_ne_zero {parts : List (List Char)} {n : List Char}
    (hn : Spells parts n) (r : List Char) : partLength (n ++ r) ≠ 0 := by
  have hlt : ∀ {p : List Char}, IsPart p → ∀ s, partLength (p ++ s) ≠ 0 := by
    intro p hp s
    have hpos := List.length_pos_iff.2 hp.ne_nil
    have hle := hp.le_partLength s
    omega
  cases hn with
  | last hp => exact hlt hp r
  | dotted hp =>
    rw [List.append_assoc]
    exact hlt hp _

/-- A name is read no shorter than it is, whatever follows, -/
theorem Spells.le_nameLength {parts : List (List Char)} {n : List Char} (hn : Spells parts n)
    (r : List Char) : n.length ≤ nameLength (n ++ r) := by
  induction hn with
  | last hp => exact Nat.le_add_right_of_le (hp.le_partLength r)
  | dotted hp ha hb hn ih =>
    have hlength := nameLength_dotted hp ha hb (hn.partLength_ne_zero r)
    simp only [List.append_assoc, List.cons_append] at hlength ⊢
    rw [hlength]
    simp only [List.length_append, List.length_cons]
    omega

/-- and no longer where it cannot go on. -/
theorem Spells.nameLength_eq {parts : List (List Char)} {n r : List Char} (hn : Spells parts n)
    (hr : ∀ c ∈ r.head?, isNamePart c = false) (hdot : dottedLength r = 0) :
    nameLength (n ++ r) = n.length := by
  induction hn with
  | last hp => exact nameLength_last hp hr hdot
  | dotted hp ha hb hn ih =>
    have hlength := nameLength_dotted hp ha hb (hn.partLength_ne_zero r)
    simp only [List.append_assoc, List.cons_append] at hlength ⊢
    rw [hlength, ih]
    simp only [List.length_append, List.length_cons]
    omega

/-- Where a point and a part are read, there are blanks, a point, blanks and the part. -/
theorem exists_of_dottedLength {r : List Char} (h : dottedLength r ≠ 0) :
    ∃ a b t, r = a ++ '.' :: (b ++ t) ∧ isAllBlank a = true ∧ isAllBlank b = true ∧
      partLength t ≠ 0 := by
  by_cases hdot : ∃ u, r.dropWhile isBlank = '.' :: u
  · obtain ⟨u, hu⟩ := hdot
    refine ⟨r.takeWhile isBlank, u.takeWhile isBlank, u.dropWhile isBlank, ?_,
      List.all_takeWhile, List.all_takeWhile, fun hzero => h ?_⟩
    · rw [List.takeWhile_append_dropWhile, ← hu, List.takeWhile_append_dropWhile]
    · rw [dottedLength_of_dot hu, if_pos hzero]
  · exact absurd (dottedLength_of_no_dot fun u hu => hdot ⟨u, hu⟩) h

/-- What is read is a name. -/
theorem exists_spells {s : List Char} (h : partLength s ≠ 0) :
    ∃ parts n r, s = n ++ r ∧ Spells parts n ∧ nameLength s = n.length := by
  induction hlength : s.length using Nat.strongRecOn generalizing s with
  | ind k ih =>
    subst hlength
    have hp := isPart_take h
    have hle := partLength_le s
    have hsplit := List.take_append_drop (partLength s) s
    have hlen : (s.take (partLength s)).length = partLength s := by
      rw [List.length_take, Nat.min_eq_left hle]
    generalize s.take (partLength s) = p at hp hsplit hlen
    by_cases hdotted : dottedLength (s.drop (partLength s)) = 0
    · refine ⟨[p], p, _, hsplit.symm, .last hp, ?_⟩
      rw [nameLength, furtherLength_of_zero hdotted, hlen, Nat.add_zero]
    · obtain ⟨a, b, t, hr, ha, hb, ht⟩ := exists_of_dottedLength hdotted
      rw [hr] at hsplit
      obtain ⟨parts, n, r, rfl, hn, hname⟩ := ih t.length (by
        rw [← hsplit]
        simp only [List.length_append, List.length_cons]
        omega) ht rfl
      refine ⟨p :: parts, p ++ (a ++ '.' :: (b ++ n)), r, ?_, .dotted hp ha hb hn, ?_⟩
      · rw [← hsplit]
        simp only [List.append_assoc, List.cons_append]
      · rw [← hsplit, nameLength_dotted hp ha hb ht, hname]
        simp only [List.length_append, List.length_cons]
        omega

theorem Spells.isBlank_head? {parts : List (List Char)} {n : List Char} (hn : Spells parts n)
    (r : List Char) : ∀ c ∈ (n ++ r).head?, isBlank c = false :=
  isBlank_head?_of_partLength (hn.partLength_ne_zero r)

/-! ## Top theorem (proved from the lemmas above) -/

/-- **The name at the front** of a text is the longest one there. -/
theorem name?_eq_some_iff {s n : List Char} :
    name? s = some n ↔ n <+: s ∧ (∃ parts, Spells parts n) ∧
      ∀ parts n', n' <+: s → Spells parts n' → n' <+: n := by
  have hread : ∀ {parts n'}, n' <+: s → Spells parts n' →
      ∃ m, name? s = some m ∧ m <+: s ∧ (∃ parts, Spells parts m) ∧ n' <+: m := by
    rintro parts n' ⟨r, rfl⟩ hn'
    have hzero := hn'.partLength_ne_zero r
    obtain ⟨parts, m, u, hm, hspells, hlength⟩ := exists_spells hzero
    have hle := hn'.le_nameLength r
    have hbefore : m <+: n' ++ r := ⟨u, hm.symm⟩
    refine ⟨m, ?_, hbefore, ⟨parts, hspells⟩,
      List.prefix_of_prefix_length_le ⟨r, rfl⟩ hbefore (hlength ▸ hle)⟩
    rw [name?_eq, if_neg hzero, hlength, hm, List.take_left]
  constructor
  · intro h
    have hzero : partLength s ≠ 0 := by
      intro hzero
      rw [name?_eq, if_pos hzero] at h
      cases h
    obtain ⟨parts, m, r, hs, hm, -⟩ := exists_spells hzero
    obtain ⟨_, hsome, hbefore, hspells, -⟩ := hread ⟨r, hs.symm⟩ hm
    obtain rfl := Option.some.inj (h.symm.trans hsome)
    refine ⟨hbefore, hspells, fun parts' n' hn' hspells' => ?_⟩
    obtain ⟨m, hm, -, -, hle⟩ := hread hn' hspells'
    rwa [Option.some.inj (h.symm.trans hm)]
  · rintro ⟨hbefore, ⟨parts, hn⟩, hlongest⟩
    obtain ⟨m, hm, hbefore', ⟨parts', hspells⟩, hle⟩ := hread hbefore hn
    rw [hm, (hlongest parts' m hbefore' hspells).eq_of_length_le hle.length_le]

end RoutineParams
