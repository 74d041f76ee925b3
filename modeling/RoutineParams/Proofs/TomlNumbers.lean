import Mathlib.Data.List.Basic
import RoutineParams.Toml.Reader
import RoutineParams.Toml.Writer
import RoutineParams.Proofs.Characters

/-!
# TOML numbers read from their texts

A number is read as it was written before the end of a line. The reader tries it as a date first,
and that fails for want of a sign between digits.

    readNumber? (decimal n ++ '\n' :: rest) = some (n, '\n' :: rest)      (readNumber?_decimal)
-/

namespace RoutineParams.Toml

/-! ## Definitions -/

/-- A text that is read as a value before the end of a line. -/
def IsTextOf (text : List Char) (v : Value) : Prop :=
  (∃ c t, text = c :: t ∧ isSpace c = false) ∧
  ∀ rest, readValue maxDepth (text ++ '\n' :: rest) = some (v, '\n' :: rest)

/-! ## Lemmas: numbers -/

section
variable {ds : List Char} (hds : ∀ c ∈ ds, c.isDigit = true) (rest : List Char)

include hds

/-- What is left of digits before a line's end is digits before a line's end. -/
theorem exists_of_fixed? {k m : Nat} {t : List Char}
    (h : fixed? k (ds ++ '\n' :: rest) = some (m, t)) :
    ∃ es, (∀ c ∈ es, c.isDigit = true) ∧ t = es ++ '\n' :: rest := by
  simp only [fixed?] at h
  split at h
  · next hdigits =>
    by_cases hk : k ≤ ds.length
    · refine ⟨ds.drop k, fun c hc => hds c (List.mem_of_mem_drop hc), ?_⟩
      rw [← (Prod.mk.inj (Option.some.inj h)).2, List.drop_append_of_le_length hk]
    · have hmem : '\n' ∈ (ds ++ '\n' :: rest).take k := by
        obtain ⟨n, hn⟩ : ∃ n, k - ds.length = n + 1 := ⟨k - ds.length - 1, by omega⟩
        rw [List.take_append, hn]
        exact List.mem_append_right _ List.mem_cons_self
      exact absurd (List.all_eq_true.1 hdigits.2 _ hmem) (by decide)
  · cases h

theorem after?_digits {q : Char} (hq : q.isDigit = false) (hline : q ≠ '\n') :
    after? q (ds ++ '\n' :: rest) = none := by
  cases ds with
  | nil => simp [after?, hline]
  | cons d ds => simp [after?, (ne_of_class (hds d List.mem_cons_self) hq).symm]

theorem readDate?_digits : readDate? (ds ++ '\n' :: rest) = none := by
  have hday : afterDay? (ds ++ '\n' :: rest) = none := by
    rw [afterDay?]
    cases hyear : fixed? 4 (ds ++ '\n' :: rest) with
    | none => rfl
    | some r =>
      obtain ⟨es, hes, hr⟩ := exists_of_fixed? hds rest hyear
      simp [hr, after?_digits hes]
  have htime : afterTime? (ds ++ '\n' :: rest) = none := by
    rw [afterTime?]
    cases hhour : fixed? 2 (ds ++ '\n' :: rest) with
    | none => rfl
    | some r =>
      obtain ⟨es, hes, hr⟩ := exists_of_fixed? hds rest hhour
      simp [hr, after?_digits hes]
  simp [readDate?, hday, htime]

theorem more_digits :
    afterDigits?.more Char.isDigit (ds ++ '\n' :: rest) = '\n' :: rest := by
  induction ds with
  | nil => simp [afterDigits?.more]
  | cons d ds ih =>
    obtain ⟨hd, hds⟩ := List.forall_mem_cons.1 hds
    have hscore : d ≠ '_' := ne_of_class hd rfl
    rw [List.cons_append, afterDigits?.more.eq_2 _ _ _ fun _ _ h => absurd h hscore, if_pos hd,
      ih hds]

theorem readDigits_digits : readDigits 10 ds = readDecimal ds := by
  refine List.foldl_ext _ _ 0 fun n c hc => ?_
  rw [hexValue?, if_pos (hds c hc)]
  rfl

end

theorem skipSign_digit {d : Char} (hd : d.isDigit = true) (s : List Char) :
    skipSign (d :: s) = d :: s := by
  have hplus : d ≠ '+' := ne_of_class hd rfl
  have hminus : d ≠ '-' := ne_of_class hd rfl
  exact skipSign.eq_3 _ (fun _ h => hplus (List.cons.inj h).1) fun _ h => hminus (List.cons.inj h).1

section
variable (n : Nat) (rest : List Char)

theorem skipSign_decimal : skipSign (decimal n ++ '\n' :: rest) = decimal n ++ '\n' :: rest := by
  obtain ⟨d, ds, hds, hd⟩ := exists_decimal n
  rw [hds]
  exact skipSign_digit hd _

theorem afterDecimal?_decimal :
    afterDecimal? (decimal n ++ '\n' :: rest) = some ('\n' :: rest) := by
  rw [afterDecimal?, skipSign_decimal]
  split
  · next s hzero =>
    -- a leading zero is the only digit
    have hhead : (decimal n).head? = some '0' := by
      obtain ⟨d, ds, hds, -⟩ := exists_decimal n
      rw [hds] at hzero ⊢
      rw [(List.cons.inj hzero).1, List.head?_cons]
    rw [decimal_of_head? hhead] at hzero
    exact congrArg some (List.cons.inj hzero).2.symm
  · obtain ⟨d, ds, hds, hd⟩ := exists_decimal n
    have hdigits : ∀ c ∈ ds, c.isDigit = true := fun c hc =>
      isDigit_of_mem_decimal (n := n) (hds ▸ List.mem_cons_of_mem d hc)
    rw [hds, List.cons_append, afterDigits?, if_pos hd, more_digits hdigits]

theorem upTo_append (s t : List Char) : upTo (s ++ t) t = s := by
  simp [upTo]

/-- A whole number has neither a fraction nor an exponent. -/
theorem readFraction?_decimal : readFraction? (decimal n ++ '\n' :: rest) = none := by
  rw [readFraction?, afterDecimal?_decimal]
  rfl

theorem readSpecial?_decimal : readSpecial? (decimal n ++ '\n' :: rest) = none := by
  obtain ⟨d, ds, hds, hd⟩ := exists_decimal n
  have hi : d ≠ 'i' := ne_of_class hd rfl
  have hn : d ≠ 'n' := ne_of_class hd rfl
  rw [readSpecial?, skipSign_decimal, hds]
  split
  · exact absurd (List.cons.inj ‹_›).1 hi
  · exact absurd (List.cons.inj ‹_›).1 hn
  · rfl

theorem readInteger?_decimal (hn : n ≤ maxInteger) :
    readInteger? (decimal n ++ '\n' :: rest) = some (.integer n, '\n' :: rest) := by
  have hbase : ∀ q ∈ ['x', 'o', 'b'], ∀ s, decimal n ++ '\n' :: rest ≠ '0' :: q :: s := by
    intro q hq s hs
    have hhead : (decimal n).head? = some '0' := by
      obtain ⟨d, ds, hds, -⟩ := exists_decimal n
      rw [hds] at hs ⊢
      rw [(List.cons.inj hs).1, List.head?_cons]
    rw [decimal_of_head? hhead] at hs
    obtain rfl := (List.cons.inj (List.cons.inj hs).2).1
    revert hq
    decide
  have hsign : (decimal n ++ '\n' :: rest).head? ≠ some '-' := by
    obtain ⟨d, ds, hds, hd⟩ := exists_decimal n
    rw [hds]
    exact fun h => ne_of_class hd rfl (Option.some.inj h)
  have hrange : -(maxInteger : Int) - 1 ≤ n ∧ (n : Int) ≤ maxInteger := by omega
  rw [readInteger?.eq_4 _ (hbase 'x' (by simp)) (hbase 'o' (by simp)) (hbase 'b' (by simp)),
    afterDecimal?_decimal, Option.bind_eq_bind, Option.bind_some, upTo_append,
    readDigits_digits fun c hc => isDigit_of_mem_decimal hc, readDecimal_decimal]
  simp only [if_neg hsign, integer?, if_pos hrange]

/-- **A whole number is read from its digits.** -/
theorem readNumber?_decimal (hn : n ≤ maxInteger) :
    readNumber? (decimal n ++ '\n' :: rest) = some (.integer n, '\n' :: rest) := by
  rw [readNumber?, readDate?_digits (fun c hc => isDigit_of_mem_decimal hc),
    readFraction?_decimal, readSpecial?_decimal, readInteger?_decimal n rest hn]
  rfl

theorem isTextOf_decimal (hn : n ≤ maxInteger) : IsTextOf (decimal n) (.integer n) := by
  obtain ⟨d, ds, hds, hd⟩ := exists_decimal n
  have hne : ∀ c ∈ ['t', 'f', '[', '{', '"', '\''], d ≠ c := by
    intro c hc
    simp only [List.mem_cons, List.not_mem_nil, or_false] at hc
    rcases hc with rfl | rfl | rfl | rfl | rfl | rfl <;> exact ne_of_class hd rfl
  simp only [List.forall_mem_cons] at hne
  obtain ⟨htrue, hfalse, harray, hbraces, hbasic, hliteral, -⟩ := hne
  refine ⟨⟨d, ds, hds, ?_⟩, fun rest => ?_⟩
  · have hspace : d ≠ ' ' := ne_of_class hd rfl
    have htab : d ≠ '\t' := ne_of_class hd rfl
    simp [isSpace, hspace, htab]
  · have hread := readNumber?_decimal n rest hn
    rw [hds, List.cons_append] at hread ⊢
    unfold readValue
    simp [*]

end

end RoutineParams.Toml
