/-!
# Blanks

The Unicode property White_Space, and texts without the blanks at their ends.

    trimBlank s = s less its leading and trailing blanks
    isAllBlank s = true ↔ trimBlank s = []                              (isAllBlank_iff_trimBlank)
-/

namespace RoutineParams

/-! ## Algorithm -/

/-- The Unicode property White_Space. -/
def isBlank (c : Char) : Bool :=
  let n := c.toNat
  (0x09 ≤ n && n ≤ 0x0D) || n == 0x20 || n == 0x85 || n == 0xA0 || n == 0x1680 ||
  (0x2000 ≤ n && n ≤ 0x200A) || n == 0x2028 || n == 0x2029 || n == 0x202F || n == 0x205F ||
  n == 0x3000

def isAllBlank (s : List Char) : Bool := s.all isBlank

/-- A text less the longest run of its last characters that satisfy `p`. -/
def dropEndWhile (p : Char → Bool) (s : List Char) : List Char :=
  (s.reverse.dropWhile p).reverse

/-- A text less its leading and trailing blanks. -/
def trimBlank (s : List Char) : List Char := dropEndWhile isBlank (s.dropWhile isBlank)

/-! ## Lemmas -/

theorem dropWhile_eq_nil_iff_all (p : Char → Bool) (s : List Char) :
    s.dropWhile p = [] ↔ s.all p = true := by
  induction s with
  | nil => simp
  | cons c s ih =>
    by_cases h : p c = true
    · simp [h, ih]
    · simp [h]

theorem head_dropWhile_false (p : Char → Bool) (s : List Char) {c : Char} {r : List Char}
    (h : s.dropWhile p = c :: r) : p c = false := by
  induction s with
  | nil => simp at h
  | cons d s ih =>
    rw [List.dropWhile_cons] at h
    split at h
    · exact ih h
    · rename_i hd
      obtain ⟨rfl, rfl⟩ := List.cons.inj h
      simpa using hd

theorem isAllBlank_iff_trimBlank (s : List Char) : isAllBlank s = true ↔ trimBlank s = [] := by
  unfold isAllBlank trimBlank dropEndWhile
  rw [List.reverse_eq_nil_iff, dropWhile_eq_nil_iff_all, List.all_reverse]
  constructor
  · intro h
    rw [(dropWhile_eq_nil_iff_all isBlank s).2 h]
    rfl
  · intro h
    cases hd : s.dropWhile isBlank with
    | nil => exact (dropWhile_eq_nil_iff_all isBlank s).1 hd
    | cons c r =>
      rw [hd, List.all_cons, head_dropWhile_false isBlank s hd] at h
      simp at h

end RoutineParams
