import RoutineParams.Lexeme

/-!
# Characters apart

Which classes of characters have none in common: what starts a word or a number is no blank, and
what stands between the tokens of a text starts with a character that continues no token.

    isLetter c = true → isBlank c = false                                   (isBlank_of_isLetter)
    startsGap c = true → isWordPart c = false                          (isWordPart_of_startsGap)
-/

namespace RoutineParams

/-- A letter or an underscore: the start of an unquoted word that is no name of a variable. -/
def isLetter (c : Char) : Bool := isAlphabetic c || c == '_'

/-- A character that a blank or a comment starts with. -/
def startsGap (c : Char) : Bool := isBlank c || c == '-' || c == '/'

/-- The code points of the blanks. -/
def blankCodes : List Nat :=
  [0x09, 0x0A, 0x0B, 0x0C, 0x0D, 0x20, 0x85, 0xA0, 0x1680, 0x2000, 0x2001, 0x2002, 0x2003, 0x2004,
   0x2005, 0x2006, 0x2007, 0x2008, 0x2009, 0x200A, 0x2028, 0x2029, 0x202F, 0x205F, 0x3000]

/-! ## Lemmas -/

theorem mem_blankCodes {c : Char} (h : isBlank c = true) : c.toNat ∈ blankCodes := by
  have hcontrols : ∀ k, k < 5 → 0x09 + k ∈ blankCodes := by decide
  have hspaces : ∀ k, k < 11 → 0x2000 + k ∈ blankCodes := by decide
  simp only [isBlank, Bool.or_eq_true, Bool.and_eq_true, decide_eq_true_eq, beq_iff_eq] at h
  rcases h with (((((((((⟨hle, hge⟩ | h) | h) | h) | h) | ⟨hle, hge⟩) | h) | h) | h) | h) | h
  · rw [show c.toNat = 0x09 + (c.toNat - 0x09) by omega]
    exact hcontrols _ (by omega)
  any_goals (rw [h]; decide)
  · rw [show c.toNat = 0x2000 + (c.toNat - 0x2000) by omega]
    exact hspaces _ (by omega)

/-- What is checked of every code point of a blank, a hyphen and a slash holds of what starts a
gap. -/
theorem of_startsGap {P : Char → Prop} (hP : ∀ n ∈ 45 :: 47 :: blankCodes, P (Char.ofNat n))
    {c : Char} (h : startsGap c = true) : P c := by
  have hn : c.toNat ∈ 45 :: 47 :: blankCodes := by
    simp only [startsGap, Bool.or_eq_true, beq_iff_eq] at h
    rcases h with (h | rfl) | rfl
    · exact List.mem_cons_of_mem _ (List.mem_cons_of_mem _ (mem_blankCodes h))
    · exact List.mem_cons_self
    · exact List.mem_cons_of_mem _ List.mem_cons_self
  have := hP _ hn
  rwa [Char.ofNat_toNat] at this

/-- A character of ranges that lie apart from others is in none of those. -/
theorem inRanges_of_apart {rs gaps : List (Nat × Nat)}
    (h : (rs.all fun r => gaps.all fun g => Nat.blt g.2 r.1 || Nat.blt r.2 g.1) = true) {c : Char}
    (hc : inRanges gaps c = true) : inRanges rs c = false := by
  obtain ⟨g, hg, hle, hge⟩ := (inRanges_iff gaps c).1 hc
  rw [Bool.eq_false_iff, Ne, inRanges_iff]
  rintro ⟨r, hr, hrle, hrge⟩
  have hapart := List.all_eq_true.1 (List.all_eq_true.1 h r hr) g hg
  simp only [Bool.or_eq_true, Nat.blt_eq] at hapart
  omega

/-- The ranges of the blanks from U+0080 on. -/
def blankRanges : List (Nat × Nat) :=
  [(0x85, 0x85), (0xA0, 0xA0), (0x1680, 0x1680), (0x2000, 0x200A), (0x2028, 0x2029),
   (0x202F, 0x202F), (0x205F, 0x205F), (0x3000, 0x3000)]

theorem inRanges_of_startsGap {c : Char} (h : startsGap c = true) :
    c.toNat < 0x80 ∨ inRanges blankRanges c = true :=
  of_startsGap (P := fun c => c.toNat < 0x80 ∨ inRanges blankRanges c = true) (by decide) h

theorem isAlphabetic_of_startsGap {c : Char} (h : startsGap c = true) : isAlphabetic c = false := by
  have halpha : c.isAlpha = false := of_startsGap (P := fun c => c.isAlpha = false) (by decide) h
  unfold isAlphabetic
  split
  · exact halpha
  · rename_i hlarge
    exact inRanges_of_apart (by decide +kernel) ((inRanges_of_startsGap h).resolve_left hlarge)

theorem isWordPart_of_startsGap {c : Char} (h : startsGap c = true) : isWordPart c = false := by
  have hothers : (c.isDigit || c == '@' || c == '$' || c == '#' || c == '_') = false :=
    of_startsGap (P := fun c => (c.isDigit || c == '@' || c == '$' || c == '#' || c == '_') = false)
      (by decide) h
  simp only [isWordPart, isAlphabetic_of_startsGap h, Bool.false_or]
  exact hothers

theorem isNumeric_of_startsGap {c : Char} (h : startsGap c = true) : isNumeric c = false :=
  of_startsGap (P := fun c => isNumeric c = false) (by decide +kernel) h

theorem isHexDigit_of_startsGap {c : Char} (h : startsGap c = true) : isHexDigit c = false :=
  of_startsGap (P := fun c => isHexDigit c = false) (by decide +kernel) h

theorem startsGap_of_isBlank {c : Char} (h : isBlank c = true) : startsGap c = true := by
  simp [startsGap, h]

theorem isBlank_of_isWordPart {c : Char} (h : isWordPart c = true) : isBlank c = false := by
  cases hb : isBlank c with
  | false => rfl
  | true =>
    rw [isWordPart_of_startsGap (startsGap_of_isBlank hb)] at h
    cases h

theorem isWordPart_of_isLetter {c : Char} (h : isLetter c = true) : isWordPart c = true := by
  simp only [isLetter, Bool.or_eq_true] at h
  rcases h with h | h <;> simp [isWordPart, h]

theorem isWordPart_of_isDigit {c : Char} (h : c.isDigit = true) : isWordPart c = true := by
  simp [isWordPart, h]

theorem isBlank_of_isLetter {c : Char} (h : isLetter c = true) : isBlank c = false :=
  isBlank_of_isWordPart (isWordPart_of_isLetter h)

theorem isBlank_of_isDigit {c : Char} (h : c.isDigit = true) : isBlank c = false :=
  isBlank_of_isWordPart (isWordPart_of_isDigit h)

theorem toNat_lt_of_isDigit {c : Char} (h : c.isDigit = true) : c.toNat < 128 := by
  simp only [Char.isDigit, Bool.and_eq_true, decide_eq_true_eq] at h
  have h2 : c.val.toNat ≤ '9'.val.toNat := UInt32.le_iff_toNat_le.1 h.2
  have h9 : '9'.val.toNat = 57 := rfl
  unfold Char.toNat
  omega

theorem isDigit_of_isLetter {c : Char} (h : isLetter c = true) : c.isDigit = false := by
  have hcodes : ∀ n, n < 128 → (Char.ofNat n).isDigit = true → isLetter (Char.ofNat n) = false := by
    decide
  cases hd : c.isDigit with
  | false => rfl
  | true =>
    have := hcodes c.toNat (toNat_lt_of_isDigit hd)
    rw [Char.ofNat_toNat, h] at this
    cases this hd

/-- A character of a class is none that the class leaves out. -/
theorem ne_of_class {p : Char → Bool} {c d : Char} (hc : p c = true) (hd : p d = false) :
    c ≠ d := by
  rintro rfl
  rw [hc] at hd
  cases hd

end RoutineParams
