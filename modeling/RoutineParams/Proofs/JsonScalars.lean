import RoutineParams.Proofs.JsonLayouts

/-!
# JSON texts and numbers

A text between quotes is read as it was escaped, and a number as it was written, if nothing follows
that would carry it on.

    readText [] ((text escaped) ++ '"' :: rest) = some (text, rest)                (readText_quoted)
    n.natAbs < 2 ^ 64 → readNumber? (decimalInt n ++ rest) = some (.int n, rest)
                                                                          (readNumber?_decimalInt)
-/

namespace RoutineParams.Json

/-! ## Lemmas: texts between quotes -/

theorem readHex?_control {c : Char} (h : c.toNat < 0x20) :
    readHex? ['0', '0', lowerHexDigit (c.toNat / 16), lowerHexDigit (c.toNat % 16)] =
      some c.toNat := by
  have hzero : hexValue? '0' = some 0 := by decide
  have hhigh := hexValue?_lowerHexDigit (c.toNat / 16) (by omega)
  have hlow := hexValue?_lowerHexDigit (c.toNat % 16) (by omega)
  simp [readHex?, hzero, hhigh, hlow]
  omega

/-- A character is escaped by a letter or by its number, or stands for itself. -/
theorem escapeChar_cases (c : Char) :
    (∃ d, escapeChar c = ['\\', d] ∧ unescape? d = some c ∧ 0x20 ≤ d.toNat) ∨
    (c.toNat < 0x20 ∧ escapeChar c =
      ['\\', 'u', '0', '0', lowerHexDigit (c.toNat / 16), lowerHexDigit (c.toNat % 16)]) ∨
    (c ≠ '"' ∧ c ≠ '\\' ∧ 0x20 ≤ c.toNat ∧ escapeChar c = [c]) := by
  by_cases hletter : c ∈ ['"', '\\', '\x08', '\x0c', '\n', '\r', '\t']
  · simp only [List.mem_cons, List.not_mem_nil, or_false] at hletter
    rcases hletter with rfl | rfl | rfl | rfl | rfl | rfl | rfl <;>
      exact Or.inl ⟨_, rfl, rfl, by decide⟩
  · simp only [List.mem_cons, List.not_mem_nil, or_false, not_or] at hletter
    by_cases hcontrol : c.toNat < 0x20
    · exact Or.inr (Or.inl ⟨hcontrol, by simp [escapeChar, hletter, hcontrol]⟩)
    · exact Or.inr (Or.inr ⟨hletter.1, hletter.2.1, by omega, by
        simp [escapeChar, hletter, hcontrol]⟩)

/-- Where a text starts with an escape by a number, the number is one. -/
def EscapesWell (s : List Char) : Prop :=
  ∀ e f g h t, s = '\\' :: 'u' :: e :: f :: g :: h :: t → ∃ n, readHex? [e, f, g, h] = some n

theorem escapesWell_quote (s : List Char) : EscapesWell ('"' :: s) := by
  intro e f g h t hs
  cases (List.cons.inj hs).1

theorem escapesWell_escapeChar (c : Char) (s : List Char) : EscapesWell (escapeChar c ++ s) := by
  intro e f g h t hs
  rcases escapeChar_cases c with ⟨d, hesc, hd, -⟩ | ⟨hcontrol, hesc⟩ | ⟨-, hslash, -, hesc⟩
  · rw [hesc] at hs
    simp only [List.cons_append, List.nil_append, List.cons.injEq] at hs
    obtain ⟨-, rfl, -⟩ := hs
    cases hd
  · rw [hesc] at hs
    simp only [List.cons_append, List.cons.injEq] at hs
    obtain ⟨-, -, rfl, rfl, rfl, rfl, -⟩ := hs
    exact ⟨_, readHex?_control hcontrol⟩
  · rw [hesc] at hs
    exact absurd (List.cons.inj hs).1 hslash

section
attribute [local simp] readText

theorem readText_number {done s : List Char} {a b c d : Char} {n : Nat}
    (h : readHex? [a, b, c, d] = some n) (hn : n < 0xD800) (hs : EscapesWell s) :
    readText done ('\\' :: 'u' :: a :: b :: c :: d :: s) = readText (Char.ofNat n :: done) s := by
  -- the reader looks ahead for a second number, which might belong to the same character
  by_cases hnext : ∃ e f g h t, s = '\\' :: 'u' :: e :: f :: g :: h :: t
  · obtain ⟨e, f, g, k, t, rfl⟩ := hnext
    obtain ⟨m, hm⟩ := hs e f g k t rfl
    rw [readText]
    simp only [h, hm]
    rw [if_neg (by omega), if_neg (by omega)]
  · rw [readText.eq_4 _ _ _ _ _ _ fun e f g k t hst => hnext ⟨e, f, g, k, t, hst⟩]
    simp only [h]
    rw [if_neg (by omega)]

theorem readText_letter {done s : List Char} {c d : Char} (h : unescape? c = some d) :
    readText done ('\\' :: c :: s) = readText (d :: done) s := by
  have hc : c ≠ 'u' := by
    rintro rfl
    cases h
  rw [readText.eq_5 _ _ _ (fun _ _ _ _ _ _ _ _ _ h => absurd h hc) (fun _ _ _ _ _ h => absurd h hc)]
  simp only [h]

theorem readText_plain {done s : List Char} {c : Char} (hquote : c ≠ '"') (hslash : c ≠ '\\')
    (hcontrol : 0x20 ≤ c.toNat) : readText done (c :: s) = readText (c :: done) s := by
  rw [readText.eq_6 _ _ _ (fun h => absurd h hquote) (fun _ _ _ _ _ _ _ _ _ h => absurd h hslash)
    (fun _ _ _ _ _ h => absurd h hslash) (fun _ _ h => absurd h hslash), if_neg (by omega)]

/-- A character is read as it was escaped. -/
theorem readText_escapeChar (c : Char) (done : List Char) {s : List Char} (hs : EscapesWell s) :
    readText done (escapeChar c ++ s) = readText (c :: done) s := by
  rcases escapeChar_cases c with ⟨d, hesc, hd, -⟩ | ⟨hcontrol, hesc⟩ |
    ⟨hquote, hslash, hcontrol, hesc⟩
  · rw [hesc]
    exact readText_letter hd
  · rw [hesc]
    refine (readText_number (readHex?_control hcontrol) (by omega) hs).trans ?_
    rw [Char.ofNat_toNat]
  · rw [hesc]
    exact readText_plain hquote hslash hcontrol

/-- **A text is read as it was quoted.** -/
theorem readText_quoted (text : String) (rest : List Char) :
    readText [] (text.toList.flatMap escapeChar ++ '"' :: rest) = some (text, rest) := by
  have hread : ∀ cs done : List Char, readText done (cs.flatMap escapeChar ++ '"' :: rest) =
      some (String.ofList (done.reverse ++ cs), rest) := by
    intro cs
    induction cs with
    | nil => intro done; simp
    | cons c cs ih =>
      intro done
      have hwell : EscapesWell (cs.flatMap escapeChar ++ '"' :: rest) := by
        cases cs with
        | nil => exact escapesWell_quote rest
        | cons d cs =>
          rw [List.flatMap_cons, List.append_assoc]
          exact escapesWell_escapeChar d _
      rw [List.flatMap_cons, List.append_assoc, readText_escapeChar c done hwell, ih]
      simp
  simpa using hread text.toList []

end

/-! ## Lemmas: numbers -/

/-- A text that does not carry a number on: it starts with no digit, point or exponent. -/
def EndsNumber (s : List Char) : Prop :=
  ∀ c ∈ s.head?, c.isDigit = false ∧ c ≠ '.' ∧ c ≠ 'e' ∧ c ≠ 'E'

theorem endsNumber_cons {c : Char} (h : c.isDigit = false ∧ c ≠ '.' ∧ c ≠ 'e' ∧ c ≠ 'E')
    (s : List Char) : EndsNumber (c :: s) := by
  intro d hd
  obtain rfl := Option.some.inj hd
  exact h

theorem endsNumber_of_isSpace {c : Char} (h : isSpace c = true) (s : List Char) :
    EndsNumber (c :: s) := by
  simp only [isSpace, Bool.or_eq_true, beq_iff_eq] at h
  rcases h with ((rfl | rfl) | rfl) | rfl <;> exact endsNumber_cons (by decide) s

/-- Blanks and a mark after them end a number. -/
theorem endsNumber_append {gap : List Char} (hgap : ∀ c ∈ gap, isSpace c = true) {s : List Char}
    (hs : EndsNumber s) : EndsNumber (gap ++ s) := by
  cases gap with
  | nil => exact hs
  | cons c gap => exact endsNumber_of_isSpace (hgap c List.mem_cons_self) _

/-- The digits of a number of 64 bits are appended as they are. -/
theorem appendDigits_eq {n : Nat} {ds : List Char}
    (h : ds.foldl (fun n c => n * 10 + digitValue c) n < Nat.pow 2 64) :
    appendDigits n ds = (ds.foldl (fun n c => n * 10 + digitValue c) n, []) := by
  have hle : ∀ (ds : List Char) (n : Nat), n ≤ ds.foldl (fun n c => n * 10 + digitValue c) n := by
    intro ds
    induction ds with
    | nil => exact fun n => Nat.le_refl n
    | cons c ds ih =>
      have hstep (n : Nat) : n ≤ n * 10 + digitValue c := by omega
      exact fun n => Nat.le_trans (hstep n) (ih _)
  induction ds generalizing n with
  | nil => rfl
  | cons c ds ih =>
    rw [List.foldl_cons] at h ⊢
    rw [appendDigits, if_pos (Nat.lt_of_le_of_lt (hle ds _) h), ih h]

theorem isInRange_of_lt {ds : List Char} (h : readDecimal ds < Nat.pow 2 64) :
    isInRange ds [] [] = true := by
  have hdigits : appendDigits 0 ds = (readDecimal ds, []) := appendDigits_eq h
  have hone : roundToDouble (Nat.pow 10 (0 : Int).toNat) = 1 := by decide
  have hlarge : 2 * Nat.pow 2 64 < leastTooLarge := by decide +kernel
  have hle := roundToDouble_le (readDecimal ds)
  have hnot : ¬leastTooLarge ≤ roundToDouble (readDecimal ds) := by omega
  simp only [isInRange, hdigits, appendDigits, List.drop_nil, exponentValue, List.length_nil,
    isScaledTooLarge, Int.add_zero, Int.sub_zero, Int.natCast_zero, hone, Nat.mul_one]
  simp [hnot]

theorem cutDigits_append {ds rest : List Char} (hds : ∀ c ∈ ds, c.isDigit = true)
    (hrest : EndsNumber rest) : cutDigits (ds ++ rest) = (ds, rest) := by
  have hstop : rest.takeWhile Char.isDigit = [] ∧ rest.dropWhile Char.isDigit = rest := by
    cases rest with
    | nil => exact ⟨rfl, rfl⟩
    | cons c rest => simp [(hrest c rfl).1]
  rw [cutDigits, List.takeWhile_append_of_pos hds, List.dropWhile_append_of_pos hds, hstop.1,
    hstop.2, List.append_nil]

theorem readFraction?_of_endsNumber {rest : List Char} (h : EndsNumber rest) :
    readFraction? rest = some ([], rest) := by
  unfold readFraction?
  split
  · exact absurd rfl (h '.' rfl).2.1
  · rfl

theorem readExponent?_of_endsNumber {rest : List Char} (h : EndsNumber rest) :
    readExponent? rest = some ([], rest) := by
  cases rest with
  | nil => rfl
  | cons c rest => simp [readExponent?, (h c rfl).2.2.1, (h c rfl).2.2.2]

/-- **A whole number of 64 bits is read from its digits.** -/
theorem readNumber?_decimalInt {n : Int} (h : n.natAbs < 2 ^ 64) {rest : List Char}
    (hrest : EndsNumber rest) : readNumber? (decimalInt n ++ rest) = some (.int n, rest) := by
  have hcut := fun m : Nat =>
    cutDigits_append (fun c hc => isDigit_of_mem_decimal (n := m) hc) hrest
  have hrange : ∀ m < 2 ^ 64, isInRange (RoutineParams.decimal m) [] [] = true := fun m hm =>
    isInRange_of_lt (by rwa [readDecimal_decimal])
  have hzeros : ∀ m, ¬(RoutineParams.decimal m = [] ∨
      (RoutineParams.decimal m).head? = some '0' ∧ RoutineParams.decimal m ≠ ['0']) := by
    rintro m (hnil | ⟨hzero, hnot⟩)
    · exact decimal_ne_nil m hnil
    · exact hnot (decimal_of_head? hzero)
  cases n with
  | ofNat n =>
    have hminus : ∀ t, RoutineParams.decimal n ++ rest ≠ '-' :: t := by
      obtain ⟨c, ds, hds, hdigit⟩ := exists_decimal n
      intro t ht
      rw [hds] at ht
      exact ne_of_class hdigit rfl (List.cons.inj ht).1
    rw [decimalInt, readNumber?.eq_def]
    split
    next negative t hsign =>
    obtain ⟨rfl, rfl⟩ : negative = false ∧ t = RoutineParams.decimal n ++ rest := by
      split at hsign
      · exact absurd ‹_› (hminus _)
      · exact ⟨(Prod.mk.inj hsign).1.symm, (Prod.mk.inj hsign).2.symm⟩
    simp [hcut, hzeros, readFraction?_of_endsNumber hrest, readExponent?_of_endsNumber hrest,
      hrange n h, readDecimal_decimal]
  | negSucc n =>
    have hne : RoutineParams.decimal (n + 1) ≠ ['0'] := by
      intro hzero
      have hvalue := readDecimal_decimal (n + 1)
      rw [hzero] at hvalue
      cases hvalue
    rw [decimalInt, readNumber?.eq_def]
    simp [hcut, readFraction?_of_endsNumber hrest, readExponent?_of_endsNumber hrest,
      hrange (n + 1) h, readDecimal_decimal, hne]
    exact ⟨by simpa [hne] using hzeros (n + 1), by omega⟩

end RoutineParams.Json
