/-!
# Decimal notation

Whole numbers written in decimal, without leading zeros, and read back.

    readDecimal (decimal n) = n                                         (readDecimal_decimal)
    c ∈ decimal n → c.isDigit                                           (isDigit_of_mem_decimal)
    decimal n starts with 0 → decimal n = ['0']                         (decimal_of_head?)
-/

namespace RoutineParams

/-! ## Algorithm -/

def digitChar (d : Nat) : Char := Char.ofNat (d + '0'.toNat)

def digitValue (c : Char) : Nat := c.toNat - '0'.toNat

/-- Puts the decimal digits of `n` before `s`. -/
def decimalOnto (n : Nat) (s : List Char) : List Char :=
  if n < 10 then digitChar n :: s else decimalOnto (n / 10) (digitChar (n % 10) :: s)
termination_by n

def decimal (n : Nat) : List Char := decimalOnto n []

/-- A whole number in decimal, with a sign if it is negative. -/
def decimalInt : Int → List Char
  | .ofNat n => decimal n
  | .negSucc n => '-' :: decimal (n + 1)

def readDecimal (s : List Char) : Nat := s.foldl (fun n c => n * 10 + digitValue c) 0

/-! ## Lemmas -/

theorem digitValue_digitChar : ∀ d, d < 10 → digitValue (digitChar d) = d := by decide

theorem isDigit_digitChar : ∀ d, d < 10 → (digitChar d).isDigit = true := by decide

theorem foldl_decimalOnto (n : Nat) (s : List Char) :
    (decimalOnto n s).foldl (fun n c => n * 10 + digitValue c) 0 =
      s.foldl (fun n c => n * 10 + digitValue c) n := by
  fun_induction decimalOnto n s with
  | case1 n s h => simp [digitValue_digitChar n h]
  | case2 n s h ih =>
    rw [ih, List.foldl_cons, digitValue_digitChar _ (Nat.mod_lt _ (by decide))]
    congr 1
    omega

theorem readDecimal_decimal (n : Nat) : readDecimal (decimal n) = n := by
  simpa [readDecimal, decimal] using foldl_decimalOnto n []

theorem isDigit_of_mem_decimalOnto {n : Nat} {s : List Char} {c : Char}
    (h : c ∈ decimalOnto n s) : c.isDigit = true ∨ c ∈ s := by
  fun_induction decimalOnto n s with
  | case1 n s hn =>
    rcases List.mem_cons.1 h with rfl | h
    · exact Or.inl (isDigit_digitChar n hn)
    · exact Or.inr h
  | case2 n s hn ih =>
    rcases ih h with h | h
    · exact Or.inl h
    · rcases List.mem_cons.1 h with rfl | h
      · exact Or.inl (isDigit_digitChar _ (Nat.mod_lt _ (by decide)))
      · exact Or.inr h

theorem isDigit_of_mem_decimal {n : Nat} {c : Char} (h : c ∈ decimal n) : c.isDigit = true := by
  rcases isDigit_of_mem_decimalOnto h with h | h
  · exact h
  · simp at h

/-- The first digit of a number is 0 only if the number is. -/
theorem exists_decimalOnto (n : Nat) (s : List Char) :
    ∃ d ds, decimalOnto n s = digitChar d :: ds ∧ d < 10 ∧ (d = 0 → n = 0 ∧ ds = s) := by
  fun_induction decimalOnto n s with
  | case1 n s h => exact ⟨n, s, rfl, h, fun hn => ⟨hn, rfl⟩⟩
  | case2 n s h ih =>
    obtain ⟨d, ds, hds, hd, hzero⟩ := ih
    refine ⟨d, ds, hds, hd, fun h0 => ?_⟩
    have hn := (hzero h0).1
    omega

theorem decimal_ne_nil (n : Nat) : decimal n ≠ [] := by
  obtain ⟨d, ds, hds, -⟩ := exists_decimalOnto n []
  rw [decimal, hds]
  exact List.cons_ne_nil _ _

theorem exists_decimal (n : Nat) : ∃ d ds, decimal n = d :: ds ∧ d.isDigit = true := by
  obtain ⟨d, ds, hds, hd, -⟩ := exists_decimalOnto n []
  exact ⟨digitChar d, ds, hds, isDigit_digitChar d hd⟩

/-- There are no leading zeros. -/
theorem decimal_of_head? {n : Nat} (h : (decimal n).head? = some '0') : decimal n = ['0'] := by
  obtain ⟨d, ds, hds, hd, hzero⟩ := exists_decimalOnto n []
  rw [decimal, hds] at h ⊢
  have hdigit : digitChar d = '0' := Option.some.inj h
  have hd0 : d = 0 := by
    rw [← digitValue_digitChar d hd, hdigit]
    rfl
  rw [hdigit, (hzero hd0).2]

end RoutineParams
