import RoutineParams.Proofs.Written

/-!
# Words and their roles

The kind of a word depends on its letters in upper case. A word never opens the declaration of a
parameter, and it ends the list exactly if it is one of the openers of a clause or `RETURNS`.

    isReservedWord w = true → w ∈ reservedWords                          (mem_of_isReservedWord)
    (Written.word w).token.role = .terminator ↔ w.upper ∈ "RETURNS" :: openers
                                                                  (Word.role_eq_terminator_iff)
-/

namespace RoutineParams

/-- The words that a clause of a body opens with. -/
def openers : List String := ["BEGIN", "DECLARE", "SELECT", "SET", "WITH"]

/-! ## Lemmas: reserved words -/

theorem mem_of_standsBetween {table : Array String} {w : String} {lo hi : Nat}
    (h : standsBetween table w lo hi = true) : w ∈ table := by
  fun_induction standsBetween table w lo hi with
  | case1 lo hi hbounds mid hmid heq => exact heq ▸ Array.getElem_mem hmid
  | case2 lo hi hbounds mid hmid hne hlt ih => exact ih h
  | case3 lo hi hbounds mid hmid hne hlt ih => exact ih h
  | case4 lo hi hbounds => cases h

theorem mem_of_isReservedWord {w : String} (h : isReservedWord w = true) : w ∈ reservedWords :=
  mem_of_standsBetween h

theorem isReservedWord_of_not_mem {w : String} (h : w ∉ reservedWords) :
    isReservedWord w = false := by
  cases hw : isReservedWord w with
  | false => rfl
  | true => exact absurd (mem_of_isReservedWord hw) h

/-- It is quicker to look through the words as a list. -/
theorem not_mem_reservedWords {w : String} (h : w ∉ reservedWords.toList) : w ∉ reservedWords :=
  fun hw => h (Array.mem_toList_iff.2 hw)

theorem mem_reservedWords_of_mem_openers : ∀ w ∈ openers, w ∈ reservedWords := by
  have hlist : ∀ w ∈ openers, w ∈ reservedWords.toList := by decide +kernel
  exact fun w hw => Array.mem_toList_iff.1 (hlist w hw)

/-! ## Lemmas: letters of either case -/

theorem toUpper_of_le {c : Char} (h : 128 ≤ c.toNat) : c.toUpper = c := by
  have hz : ¬('a'.val ≤ c.val ∧ c.val ≤ 'z'.val) := by
    rintro ⟨-, hle⟩
    have := UInt32.le_iff_toNat_le.1 hle
    have hcode : 'z'.val.toNat = 122 := rfl
    unfold Char.toNat at h
    omega
  exact dif_neg hz

theorem toLower_of_le {c : Char} (h : 128 ≤ c.toNat) : c.toLower = c := by
  have hz : ¬(c.val ≥ 'A'.val ∧ c.val ≤ 'Z'.val) := by
    rintro ⟨-, hle⟩
    have := UInt32.le_iff_toNat_le.1 hle
    have hcode : 'Z'.val.toNat = 90 := rfl
    unfold Char.toNat at h
    omega
  exact dif_neg hz

theorem toUpper_toLower (c : Char) : c.toLower.toUpper = c.toUpper := by
  have hcodes : ∀ n, n < 128 → (Char.ofNat n).toLower.toUpper = (Char.ofNat n).toUpper := by decide
  by_cases h : c.toNat < 128
  · have := hcodes c.toNat h
    rwa [Char.ofNat_toNat] at this
  · rw [toLower_of_le (by omega)]

theorem toLower_toUpper (c : Char) : c.toUpper.toLower = c.toLower := by
  have hcodes : ∀ n, n < 128 → (Char.ofNat n).toUpper.toLower = (Char.ofNat n).toLower := by decide
  by_cases h : c.toNat < 128
  · have := hcodes c.toNat h
    rwa [Char.ofNat_toNat] at this
  · rw [toUpper_of_le (by omega)]

theorem eq_or_eq_of_toUpper {c u : Char} (h : c.toUpper = u) : c = u ∨ c = u.toLower := by
  have hcodes : ∀ n, n < 128 → Char.ofNat n = (Char.ofNat n).toUpper ∨
      Char.ofNat n = (Char.ofNat n).toUpper.toLower := by decide
  subst h
  by_cases h : c.toNat < 128
  · have := hcodes c.toNat h
    rwa [Char.ofNat_toNat] at this
  · exact .inl (toUpper_of_le (by omega)).symm

/-- Texts are equal up to case in lower case just if they are in upper case. -/
theorem map_toLower_eq_iff (s t : List Char) :
    s.map Char.toLower = t.map Char.toLower ↔ s.map Char.toUpper = t.map Char.toUpper := by
  have hupper : ∀ l : List Char, (l.map Char.toLower).map Char.toUpper = l.map Char.toUpper := by
    intro l
    rw [List.map_map]
    exact List.map_congr_left fun c _ => toUpper_toLower c
  have hlower : ∀ l : List Char, (l.map Char.toUpper).map Char.toLower = l.map Char.toLower := by
    intro l
    rw [List.map_map]
    exact List.map_congr_left fun c _ => toLower_toUpper c
  constructor
  · intro h
    rw [← hupper s, ← hupper t, h]
  · intro h
    rw [← hlower s, ← hlower t, h]

/-! ## Lemmas: kinds -/

namespace Word

/-- The kind of a word, by its letters in upper case. -/
theorem ofWord_letters (w : Word) :
    Kind.ofWord w.letters =
      if w.upper = "BEGIN" then .begin
      else if w.upper = "DECLARE" then .declare
      else if w.upper = "SELECT" then .select
      else if w.upper = "SET" then .set
      else if w.upper = "WITH" then .with
      else if w.upper = "CREATE" then .create
      else if w.upper = "PROC" ∨ w.upper = "PROCEDURE" then .procedure
      else if w.upper = "FUNCTION" then .function
      else if w.upper = "AS" then .as
      else if w.upper = "NULL" then .null
      else if isReservedWord w.upper then .reserved
      else .identifier := rfl

/-- The kind of a word is that of its clause if it opens one, and else that of a word which says
nothing about parameters or may be a default. -/
theorem ofWord_letters_cases (w : Word) :
    w.upper ∈ openers ∧
        Kind.ofWord w.letters ∈ [.begin, .declare, .select, .set, .with] ∨
      w.upper ∉ openers ∧
        Kind.ofWord w.letters ∈
          [.create, .procedure, .function, .as, .null, .reserved, .identifier] := by
  rw [ofWord_letters]
  by_cases hopen : w.upper ∈ openers
  · refine Or.inl ⟨hopen, ?_⟩
    simp only [openers, List.mem_cons, List.not_mem_nil, or_false] at hopen
    rcases hopen with h | h | h | h | h <;> rw [h] <;> decide
  · have hne : ∀ u ∈ openers, w.upper ≠ u := by
      rintro u hu rfl
      exact hopen hu
    refine Or.inr ⟨hopen, ?_⟩
    rw [if_neg (hne "BEGIN" (by decide)), if_neg (hne "DECLARE" (by decide)),
      if_neg (hne "SELECT" (by decide)), if_neg (hne "SET" (by decide)),
      if_neg (hne "WITH" (by decide))]
    repeat' split
    all_goals decide

theorem role_ofWord_eq_terminator_iff (w : Word) :
    (Kind.ofWord w.letters).role = .terminator ↔ w.upper ∈ openers := by
  have hends : ∀ k ∈ [Kind.begin, .declare, .select, .set, .with], k.role = .terminator := by decide
  have hgoes : ∀ k ∈ [Kind.create, .procedure, .function, .as, .null, .reserved, .identifier],
      k.role ≠ .terminator := by decide
  rcases w.ofWord_letters_cases with ⟨hu, hk⟩ | ⟨hu, hk⟩
  · exact iff_of_true (hends _ hk) hu
  · exact iff_of_false (hgoes _ hk) hu

/-- No word is a marker or the sign `=`. -/
theorem ofWord_letters_ne (w : Word) :
    (Kind.ofWord w.letters).role ≠ .parameterMarker ∧ Kind.ofWord w.letters ≠ .equals := by
  have hends : ∀ k ∈ [Kind.begin, .declare, .select, .set, .with],
      k.role ≠ .parameterMarker ∧ k ≠ .equals := by decide
  have hgoes : ∀ k ∈ [Kind.create, .procedure, .function, .as, .null, .reserved, .identifier],
      k.role ≠ .parameterMarker ∧ k ≠ .equals := by decide
  rcases w.ofWord_letters_cases with ⟨-, hk⟩ | ⟨-, hk⟩
  · exact hends _ hk
  · exact hgoes _ hk

theorem isReturns_iff (w : Word) :
    (Written.word w).token.isReturns = true ↔ w.upper = "RETURNS" := by
  have htext : eqIgnoreCase (String.ofList w.letters) "RETURNS" = true ↔ w.upper = "RETURNS" := by
    have hupper : w.upper.toList = w.letters.map Char.toUpper := String.toList_ofList
    rw [eqIgnoreCase, beq_iff_eq, map_toLower_eq_iff, String.toList_ofList,
      ← String.toList_inj, hupper]
    rfl
  constructor
  · intro h
    rw [Token.isReturns, Bool.and_eq_true] at h
    exact htext.1 h.2
  · intro h
    have hreserved : isReservedWord "RETURNS" = false :=
      isReservedWord_of_not_mem (not_mem_reservedWords (by decide +kernel))
    have hkind : Kind.ofWord w.letters = .identifier := by
      rw [ofWord_letters, h]
      simp [hreserved]
    rw [Token.isReturns, Bool.and_eq_true]
    exact ⟨by simp [Written.token, Written.kind, hkind], htext.2 h⟩

end Word

/-! ## Top theorems (proved from the lemmas above) -/

namespace Word

/-- A word ends the parameter list just if it opens a clause or is `RETURNS`. -/
theorem role_eq_terminator_iff (w : Word) :
    (Written.word w).token.role = .terminator ↔ w.upper ∈ "RETURNS" :: openers := by
  rw [Token.role, List.mem_cons, ← isReturns_iff, ← role_ofWord_eq_terminator_iff]
  by_cases h : (Written.word w).token.isReturns = true
  · simp [h]
  · rw [if_neg h]
    simp only [h, Bool.false_eq_true, false_or]
    rfl

theorem role_ne_parameterMarker (w : Word) :
    (Written.word w).token.role ≠ .parameterMarker := by
  unfold Token.role
  split
  · simp
  · exact w.ofWord_letters_ne.1

theorem isAssignment_eq_false (w : Word) : (Written.word w).token.isAssignment = false := by
  show (Kind.ofWord w.letters == .equals) = false
  exact beq_false_of_ne w.ofWord_letters_ne.2

end Word

end RoutineParams
