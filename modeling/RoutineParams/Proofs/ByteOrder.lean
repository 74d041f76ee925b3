import Mathlib.Data.String.Basic

/-!
# The order of texts is that of their bytes

Texts are ordered by their characters, the first difference counting, and that is the order of
their bytes: a greater character has a greater byte at the first place where the two differ, and
neither of them starts with the other.

    s < t ↔ bytesOf s < bytesOf t                                        (lt_iff_bytesOf_lt)
-/

namespace RoutineParams

/-- The bytes of a text. -/
def bytesOf (s : String) : List UInt8 := s.toByteArray.data.toList

theorem bytesOf_eq (s : String) : bytesOf s = s.toList.flatMap String.utf8EncodeChar := by
  rw [bytesOf, ← String.utf8Encode_toList, List.utf8Encode, List.data_toByteArray,
    List.toList_toArray]

/-! ## Lemmas: characters -/

/-- Bytes are compared one after the other, by the numbers that they hold. -/
theorem ofNat_cons_lt {a b : Nat} {x y : List UInt8} (ha : a < 256) (hb : b < 256) (h : a ≤ b)
    (hxy : a = b → x < y) : UInt8.ofNat a :: x < UInt8.ofNat b :: y := by
  have htoNat : ∀ {n : Nat}, n < 256 → (UInt8.ofNat n).toNat = n := fun hn => by
    rw [UInt8.toNat_ofNat', Nat.mod_eq_of_lt hn]
  rw [List.cons_lt_cons_iff]
  rcases Nat.lt_or_eq_of_le h with hlt | heq
  · refine Or.inl (UInt8.lt_iff_toNat_lt.2 ?_)
    rwa [htoNat ha, htoNat hb]
  · exact Or.inr ⟨congrArg UInt8.ofNat heq, hxy heq⟩

/-- The bytes of a greater character are greater, whatever follows. -/
theorem utf8EncodeChar_append_lt {c d : Char} (h : c < d) (x y : List UInt8) :
    String.utf8EncodeChar c ++ x < String.utf8EncodeChar d ++ y := by
  have hlt : c.val.toNat < d.val.toNat := h
  have hmax : d.val.toNat < 0x110000 := by
    have hvalid := d.valid
    simp only [UInt32.isValidChar, Nat.isValidChar] at hvalid
    omega
  unfold String.utf8EncodeChar
  generalize c.val.toNat = m at hlt ⊢
  generalize d.val.toNat = n at hlt hmax ⊢
  extract_lets
  -- of characters with different numbers of bytes the first byte tells, and else the first
  -- digit, to the base of 64, in which they differ
  split
  · split
    · exact ofNat_cons_lt (by omega) (by omega) (by omega) (by omega)
    split
    · exact ofNat_cons_lt (by omega) (by omega) (by omega) (by omega)
    split <;> exact ofNat_cons_lt (by omega) (by omega) (by omega) (by omega)
  split
  · rw [if_neg (by omega)]
    split
    · refine ofNat_cons_lt (by omega) (by omega) (by omega) fun _ => ?_
      exact ofNat_cons_lt (by omega) (by omega) (by omega) (by omega)
    split <;> exact ofNat_cons_lt (by omega) (by omega) (by omega) (by omega)
  split
  · rw [if_neg (by omega), if_neg (by omega)]
    split
    · refine ofNat_cons_lt (by omega) (by omega) (by omega) fun _ => ?_
      refine ofNat_cons_lt (by omega) (by omega) (by omega) fun _ => ?_
      exact ofNat_cons_lt (by omega) (by omega) (by omega) (by omega)
    · exact ofNat_cons_lt (by omega) (by omega) (by omega) (by omega)
  · rw [if_neg (by omega), if_neg (by omega), if_neg (by omega)]
    refine ofNat_cons_lt (by omega) (by omega) (by omega) fun _ => ?_
    refine ofNat_cons_lt (by omega) (by omega) (by omega) fun _ => ?_
    refine ofNat_cons_lt (by omega) (by omega) (by omega) fun _ => ?_
    exact ofNat_cons_lt (by omega) (by omega) (by omega) (by omega)

/-! ## Lemmas: texts -/

theorem flatMap_utf8EncodeChar_lt {s t : List Char} (h : s < t) :
    s.flatMap String.utf8EncodeChar < t.flatMap String.utf8EncodeChar := by
  induction h with
  | @nil c t =>
    rw [List.flatMap_nil, List.flatMap_cons]
    cases hbytes : String.utf8EncodeChar c with
    | nil => exact absurd hbytes String.utf8EncodeChar_ne_nil
    | cons a x => exact List.nil_lt_cons _ _
  | rel hlt => exact utf8EncodeChar_append_lt hlt _ _
  | cons _ ih => exact List.append_left_lt ih

/-- **The order of texts is the order of their bytes.** -/
theorem lt_iff_bytesOf_lt {s t : String} : s < t ↔ bytesOf s < bytesOf t := by
  have hmono : ∀ {s t : String}, s < t → bytesOf s < bytesOf t := by
    intro s t h
    rw [bytesOf_eq, bytesOf_eq]
    exact flatMap_utf8EncodeChar_lt h
  refine ⟨hmono, fun h => Classical.byContradiction fun hnot => ?_⟩
  have hle : t ≤ s := hnot
  rcases Std.le_iff_lt_or_eq.1 hle with hlt | rfl
  · exact List.lt_asymm h (hmono hlt)
  · exact List.lt_irrefl _ h

end RoutineParams
