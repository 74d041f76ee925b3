import RoutineParams.Proofs.Lookahead

/-!
# Cutting runs off

A text may be cut off behind a run of characters, or behind a mark that closes something: the run is
no shorter then, and the mark is found at the same place.

    ((s ++ r).takeWhile p).length ≤ s.length → s.takeWhile p = (s ++ r).takeWhile p
                                                                           (takeWhile_of_append)
    quoted .. (s ++ r) = .ok l → l.extra ≤ s.length → quoted .. s = .ok l     (quoted_of_append)
-/

namespace RoutineParams

/-! ## Lemmas: runs and heads -/

theorem takeWhile_of_append {p : Char → Bool} {s r : List Char}
    (h : ((s ++ r).takeWhile p).length ≤ s.length) : s.takeWhile p = (s ++ r).takeWhile p := by
  rw [List.takeWhile_append] at h ⊢
  split
  · next hall =>
    rw [if_pos hall, List.length_append] at h
    have hnil : r.takeWhile p = [] := List.eq_nil_of_length_eq_zero (by omega)
    have hs : s.takeWhile p = s := (List.takeWhile_prefix p).eq_of_length hall
    rw [hnil, List.append_nil, hs]
  · rfl

theorem countWhile_of_append {p : Char → Bool} {s r : List Char}
    (h : countWhile p (s ++ r) ≤ s.length) : countWhile p s = countWhile p (s ++ r) := by
  unfold countWhile at h ⊢
  rw [takeWhile_of_append h]

theorem head?_of_append {s r : List Char} {c : Char} (h : s.head? = some c) :
    (s ++ r).head? = some c := by
  rw [List.head?_append, h]
  rfl

/-- A lexeme that holds the next character has it in every text which is long enough. -/
theorem head?_iff_of_append {s r : List Char} {d : Char} {k : Nat} (hk : k ≤ s.length)
    (h : (s ++ r).head? = some d → 1 ≤ k) : s.head? = some d ↔ (s ++ r).head? = some d := by
  refine ⟨head?_of_append, fun hd => ?_⟩
  rwa [← head?_append_of_lt r (Nat.lt_of_lt_of_le (h hd) hk)]

/-! ## Lemmas: what is closed by a mark -/

theorem countToClose_of_append {escape : Option Char} {close : Char} {n : Nat} {s r : List Char}
    {m : Nat} (h : countToClose escape close n (s ++ r) = some m) (hm : m ≤ n + s.length) :
    countToClose escape close n s = some m := by
  fun_induction countToClose escape close n s with
  | case1 n =>
    have := (countToClose_bounds _ _ _ _ _ h).1
    simp at hm
    omega
  | case2 n =>
    have := (countToClose_bounds _ _ _ _ _ h).1
    simp at hm
    congr 1
    omega
  | case3 n c hc =>
    cases r with
    | nil => simp [countToClose, hc] at h
    | cons d r =>
      rw [List.cons_append, List.nil_append, countToClose, if_neg hc] at h
      have : n + 1 < m := by
        split at h
        · have := (countToClose_bounds _ _ _ _ _ h).1
          omega
        · exact (countToClose_bounds _ _ _ _ _ h).1
      simp at hm
      omega
  | case4 n s ih =>
    rw [List.cons_append, List.cons_append, countToClose, if_pos rfl, if_pos rfl] at h
    exact ih h (by simp only [List.length_cons] at hm; omega)
  | case5 n d s hd =>
    rwa [List.cons_append, List.cons_append, countToClose, if_pos rfl, if_neg hd] at h
  | case6 n c d s hc he ih =>
    rw [List.cons_append, List.cons_append, countToClose, if_neg hc, if_pos he] at h
    exact ih h (by simp only [List.length_cons] at hm; omega)
  | case7 n c d s hc he ih =>
    rw [List.cons_append, List.cons_append, countToClose, if_neg hc, if_neg he] at h
    exact ih h (by simp only [List.length_cons] at hm ⊢; omega)

theorem quoted_of_append {form : Form} {fault : LexFault} {escape : Option Char} {close : Char}
    {before : Nat} {s r : List Char} {l : Lexeme}
    (h : quoted form fault escape close before (s ++ r) = .ok l)
    (hl : l.extra ≤ before + s.length) : quoted form fault escape close before s = .ok l := by
  unfold quoted at h ⊢
  split at h
  · next n hn =>
    obtain rfl := Except.ok.inj h
    rw [countToClose_of_append hn hl]
  · cases h

/-- A quoted text has its opening and its closing quote. -/
theorem lt_extra_of_quoted {form : Form} {fault : LexFault} {escape : Option Char} {close : Char}
    {before : Nat} {s : List Char} {l : Lexeme}
    (h : quoted form fault escape close before s = .ok l) : before < l.extra := by
  unfold quoted at h
  split at h
  · next n hn =>
    obtain rfl := Except.ok.inj h
    exact (countToClose_bounds _ _ _ _ _ hn).1
  · cases h

/-- The end of a comment has two characters. -/
theorem add_two_le_countToCommentEnd {depth n : Nat} {s : List Char} {m : Nat}
    (h : countToCommentEnd depth n s = some m) : n + 2 ≤ m := by
  fun_induction countToCommentEnd depth n s with
  | case1 => simp at h
  | case2 => simp at h
  | case3 depth n c d s hopen ih => have := ih h; omega
  | case4 n c d s hopen hclose => simp at h; omega
  | case5 n c d s hopen hclose depth ih => have := ih h; omega
  | case6 depth n c d s hopen hclose ih => have := ih h; omega

theorem countToCommentEnd_of_append {depth n : Nat} {s r : List Char} {m : Nat}
    (h : countToCommentEnd depth n (s ++ r) = some m) (hm : m ≤ n + s.length) :
    countToCommentEnd depth n s = some m := by
  have htwo := add_two_le_countToCommentEnd h
  fun_induction countToCommentEnd depth n s with
  | case1 => simp at hm; omega
  | case2 => simp at hm; omega
  | case3 depth n c d s hopen ih =>
    simp only [List.cons_append, countToCommentEnd, if_pos hopen] at h
    simp only [List.length_cons] at hm
    exact ih h (by omega) (add_two_le_countToCommentEnd h)
  | case4 n c d s hopen hclose =>
    simp only [List.cons_append, countToCommentEnd, if_neg hopen, if_pos hclose] at h
    exact h
  | case5 n c d s hopen hclose depth ih =>
    simp only [List.cons_append, countToCommentEnd, if_neg hopen, if_pos hclose] at h
    simp only [List.length_cons] at hm
    exact ih h (by omega) (add_two_le_countToCommentEnd h)
  | case6 depth n c d s hopen hclose ih =>
    simp only [List.cons_append, countToCommentEnd, if_neg hopen, if_neg hclose] at h
    simp only [List.length_cons] at hm ih
    exact ih h (by omega) (add_two_le_countToCommentEnd h)

theorem countThrough_of_append {mark : List Char} {n : Nat} {s r : List Char} {m : Nat}
    (hmark : mark ≠ [])
    (h : countThrough mark n (s ++ r) = some m) (hm : m ≤ n + s.length) :
    countThrough mark n s = some m := by
  induction s generalizing n with
  | nil =>
    have := add_length_le_countThrough h
    have := List.length_pos_iff.2 hmark
    simp at hm
    omega
  | cons c s ih =>
    rw [List.cons_append, countThrough] at h
    rw [countThrough]
    rw [List.length_cons] at hm
    by_cases hp : mark.isPrefixOf (c :: (s ++ r)) = true
    · rw [if_pos hp] at h
      obtain rfl := Option.some.inj h
      rw [List.isPrefixOf_iff_prefix] at hp
      rw [if_pos]
      rw [List.isPrefixOf_iff_prefix]
      exact List.prefix_of_prefix_length_le hp (List.prefix_append (c :: s) r)
        (by rw [List.length_cons]; omega)
    · rw [if_neg hp] at h
      rw [if_neg]
      · exact ih h (by omega)
      · rw [List.isPrefixOf_iff_prefix] at hp ⊢
        exact fun hs => hp (hs.trans (List.prefix_append (c :: s) r))

end RoutineParams
