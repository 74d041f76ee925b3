/-!
# Ranges of code points

A property of characters is given by the closed ranges of code points that have it.

    inRanges rs c = true ↔ ∃ r ∈ rs, r.1 ≤ c.toNat ∧ c.toNat ≤ r.2      (inRanges_iff)
-/

namespace RoutineParams

/-- Whether a character lies in one of the closed ranges `rs` of code points. -/
def inRanges (rs : List (Nat × Nat)) (c : Char) : Bool :=
  rs.any fun r => r.1 ≤ c.toNat && c.toNat ≤ r.2

theorem inRanges_iff (rs : List (Nat × Nat)) (c : Char) :
    inRanges rs c = true ↔ ∃ r ∈ rs, r.1 ≤ c.toNat ∧ c.toNat ≤ r.2 := by
  simp [inRanges]

end RoutineParams
