/-!
# The range of doubles

Which decimal numbers are too large for a double, a floating point number of 64 bits. A number is
too large if it is at least halfway from the largest double to the power of two that would follow.
Two rules are in use: `isTooLarge` looks at the number itself, `isScaledTooLarge` at the product of
two doubles, the digits of the number and a power of ten, each of them rounded already.

    roundToDouble n = n   for n < 2 ^ 53                                (roundToDouble_of_lt)
    roundToDouble n ≤ 2 * n                                             (roundToDouble_le)
-/

namespace RoutineParams

/-! ## Algorithm -/

/-- The least number that is too large: below two to the power 1024 by half of the last place. -/
def leastTooLarge : Nat := Nat.pow 2 1024 - Nat.pow 2 970

/-- Whether a whole number times a power of ten is too large. A number with few binary digits for
its negative exponent is not, and its power of ten is not computed. -/
def isTooLarge (n : Nat) (exponent : Int) : Bool :=
  if n = 0 then false
  else if 400 < exponent then true
  else if 0 ≤ exponent then leastTooLarge ≤ n * Nat.pow 10 exponent.toNat
  else if (n.log2 : Int) + 3 * exponent < 1000 then false
  else leastTooLarge * Nat.pow 10 (-exponent).toNat ≤ n

/-- The nearest whole number that has no more than 53 binary digits before its trailing zeros; of
two that are as near, the one whose last digit there is even. -/
def roundToDouble (n : Nat) : Nat :=
  if n < Nat.pow 2 53 then n
  else
    let place := Nat.pow 2 (n.log2 - 52)
    let q := n / place
    let r := n % place
    if place < 2 * r ∨ (place = 2 * r ∧ q % 2 = 1) then (q + 1) * place else q * place

/-- Whether the product of the doubles nearest to a whole number and to a power of ten is too
large. No double is near enough to a power beyond 308. -/
def isScaledTooLarge (n : Nat) (exponent : Int) : Bool :=
  if n = 0 ∨ exponent < 0 then false
  else if 308 < exponent then true
  else leastTooLarge ≤ roundToDouble n * roundToDouble (Nat.pow 10 exponent.toNat)

/-! ## Lemmas -/

theorem roundToDouble_of_lt {n : Nat} (h : n < Nat.pow 2 53) : roundToDouble n = n := by
  simp [roundToDouble, h]

theorem roundToDouble_le (n : Nat) : roundToDouble n ≤ 2 * n := by
  unfold roundToDouble
  split
  · omega
  · next hn =>
    have hne : n ≠ 0 := by
      rintro rfl
      simp at hn
    have hplace : Nat.pow 2 (n.log2 - 52) ≤ n :=
      Nat.le_trans (Nat.pow_le_pow_right (by decide) (Nat.sub_le _ _)) (Nat.log2_self_le hne)
    simp only
    generalize Nat.pow 2 (n.log2 - 52) = place at hplace ⊢
    have hdown : n / place * place ≤ n := Nat.div_mul_le_self n place
    split
    · rw [Nat.add_mul]
      omega
    · omega

end RoutineParams
