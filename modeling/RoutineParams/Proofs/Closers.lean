import RoutineParams.Proofs.Lines
import RoutineParams.Proofs.Roles

/-!
# What closes a lexeme

A lexeme that a mark closes ends with that mark. So what goes on over the end of a line ends with it
too, and what comes before the end of the line is not closed. A number does not go on over a newline.

    quoted .. (t ++ (u ++ r)) ends with u → quoted .. t fails                  (crosses_quoted)
    countToCommentEnd .. (t ++ (u ++ r)) ends with u → there is no end in t   (crosses_comment)
-/

namespace RoutineParams

/-! ## Lemmas: what closes a lexeme -/

theorem exists_of_countToClose {escape : Option Char} {close : Char} {n : Nat} {s : List Char}
    {m : Nat} (h : countToClose escape close n s = some m) :
    ∃ a b, s = a ++ close :: b ∧ m = n + a.length + 1 := by
  fun_induction countToClose escape close n s with
  | case1 => cases h
  | case2 n => exact ⟨[], [], rfl, (Option.some.inj h).symm⟩
  | case3 => cases h
  | case4 n s ih =>
    obtain ⟨a, b, rfl, rfl⟩ := ih h
    exact ⟨close :: close :: a, b, rfl, by simp only [List.length_cons]; omega⟩
  | case5 n d s hd => exact ⟨[], d :: s, rfl, (Option.some.inj h).symm⟩
  | case6 n c d s hc he ih =>
    obtain ⟨a, b, rfl, rfl⟩ := ih h
    exact ⟨c :: d :: a, b, rfl, by simp only [List.length_cons]; omega⟩
  | case7 n c d s hc he ih =>
    obtain ⟨a, b, hs, rfl⟩ := ih h
    exact ⟨c :: a, b, by rw [hs]; rfl, by simp only [List.length_cons]; omega⟩

theorem exists_of_countToCommentEnd {depth n : Nat} {s : List Char} {m : Nat}
    (h : countToCommentEnd depth n s = some m) :
    ∃ a b, s = a ++ '/' :: b ∧ m = n + a.length + 1 := by
  fun_induction countToCommentEnd depth n s with
  | case1 => cases h
  | case2 => cases h
  | case3 depth n c d s hopen ih =>
    obtain ⟨a, b, rfl, rfl⟩ := ih h
    exact ⟨c :: d :: a, b, rfl, by simp only [List.length_cons]; omega⟩
  | case4 n c d s hopen hclose =>
    obtain ⟨rfl, rfl⟩ := hclose
    exact ⟨['*'], s, rfl, (Option.some.inj h).symm⟩
  | case5 n c d s hopen hclose depth ih =>
    obtain ⟨a, b, rfl, rfl⟩ := ih h
    exact ⟨c :: d :: a, b, rfl, by simp only [List.length_cons]; omega⟩
  | case6 depth n c d s hopen hclose ih =>
    obtain ⟨a, b, hs, rfl⟩ := ih h
    exact ⟨c :: a, b, by rw [hs]; rfl, by simp only [List.length_cons]; omega⟩

theorem exists_of_countThrough {mark : List Char} {n : Nat} {s : List Char} {m : Nat}
    (h : countThrough mark n s = some m) :
    ∃ a b, s = a ++ (mark ++ b) ∧ m = n + a.length + mark.length := by
  fun_induction countThrough mark n s with
  | case1 => cases h
  | case2 n c s hmark =>
    obtain ⟨b, hb⟩ := List.isPrefixOf_iff_prefix.1 hmark
    exact ⟨[], b, hb.symm, (Option.some.inj h).symm⟩
  | case3 n c s hmark ih =>
    obtain ⟨a, b, rfl, rfl⟩ := ih h
    exact ⟨c :: a, b, rfl, by simp only [List.length_cons]; omega⟩

/-- What a lexeme is closed by stands at the end of what goes on over the line. -/
theorem getLast?_of_close {a b t u r : List Char} {d : Char} (h : t ++ (u ++ r) = a ++ d :: b)
    (hlength : (t ++ u).length = a.length + 1) (hu : u ≠ []) : u.getLast? = some d := by
  have hboth : t ++ u = a ++ [d] := by
    rw [← List.append_assoc, List.append_cons] at h
    exact List.append_inj_left h (by rw [hlength, List.length_append, List.length_singleton])
  have hlast : (t ++ u).getLast? = some d := by rw [hboth, List.getLast?_concat]
  rwa [List.getLast?_append_of_ne_nil _ hu] at hlast

/-- A quoted text that goes on over the end of a line has no end before it. -/
theorem crosses_quoted {form : Form} {fault : LexFault} {escape : Option Char} {close : Char}
    {before : Nat} {t u r : List Char} {l : Lexeme} (hclose : close ≠ '\n') (ht : EndsLine t)
    (hu : u ≠ []) (h : quoted form fault escape close before (t ++ (u ++ r)) = .ok l)
    (hl : l.extra = before + (t ++ u).length) :
    l.form = form ∧ quoted form fault escape close before t = .error ⟨fault, before⟩ ∧
      u.getLast? = some close := by
  have hpos := List.length_pos_iff.2 hu
  rw [quoted] at h
  cases hcount : countToClose escape close before (t ++ (u ++ r)) with
  | none => rw [hcount] at h; cases h
  | some m =>
    rw [hcount] at h
    obtain rfl := Except.ok.inj h
    simp only [List.length_append] at hl
    obtain ⟨a, b, hs, hm⟩ := exists_of_countToClose hcount
    refine ⟨rfl, ?_, getLast?_of_close hs (by rw [List.length_append]; omega) hu⟩
    rw [quoted]
    cases hshort : countToClose escape close before t with
    | none => rfl
    | some k =>
      exfalso
      obtain ⟨a', b', ht', hk⟩ := exists_of_countToClose hshort
      by_cases hend : k < before + t.length
      · -- it would have been closed there in the whole text
        have := Option.some.inj ((countToClose_append (u ++ r) hshort hend).symm.trans hcount)
        omega
      · -- the mark would be the newline at the end
        have hlength := congrArg List.length ht'
        rw [List.length_append, List.length_cons] at hlength
        obtain rfl : b' = [] := List.eq_nil_of_length_eq_zero (by omega)
        exact hclose (ht close (by rw [ht', List.getLast?_concat]; rfl))

/-- A comment that goes on over the end of a line has no end before it. -/
theorem crosses_comment {t u r : List Char} {n m : Nat} (hu : u ≠ [])
    (h : countToCommentEnd 0 n (t ++ (u ++ r)) = some m) (hm : m = n + (t ++ u).length) :
    countToCommentEnd 0 n t = none ∧ u.getLast? = some '/' := by
  have hpos := List.length_pos_iff.2 hu
  obtain ⟨a, b, hs, hm'⟩ := exists_of_countToCommentEnd h
  rw [List.length_append] at hm
  refine ⟨?_, getLast?_of_close hs (by rw [List.length_append]; omega) hu⟩
  cases hshort : countToCommentEnd 0 n t with
  | none => rfl
  | some k =>
    have hk := (countToCommentEnd_bounds _ _ _ _ hshort).2
    have := Option.some.inj ((countToCommentEnd_append (u ++ r) hshort).symm.trans h)
    omega

/-! ## Lemmas: what a newline stops -/

theorem countWhile_append_of_stop {p : Char → Bool} {b : List Char}
    (hb : ∀ c ∈ b.head?, p c = false) (a : List Char) :
    countWhile p (a ++ b) = countWhile p a := by
  rw [countWhile, takeWhile_append_of_stop hb, countWhile]

section
variable {b : List Char} (hb : b.head? = some '\n')
include hb

theorem stops_of_newline {p : Char → Bool} (hp : p '\n' = false) : ∀ c ∈ b.head?, p c = false := by
  rw [hb]
  rintro c hc
  rwa [← Option.some.inj hc]

theorem head?_append_newline {d : Char} (hd : d ≠ '\n') (a : List Char) :
    (a ++ b).head? = some d ↔ a.head? = some d := by
  cases a with
  | nil =>
    rw [List.nil_append, hb]
    exact iff_of_false (fun h => hd (Option.some.inj h).symm) (by simp)
  | cons c a => rfl

theorem exponentLength_append_newline (a : List Char) :
    exponentLength (a ++ b) = exponentLength a := by
  cases a with
  | nil =>
    obtain ⟨b', rfl⟩ : ∃ b', b = '\n' :: b' := List.head?_eq_some_iff.1 hb
    rfl
  | cons e a =>
    have hsign : signLength (a ++ b) = signLength a := by
      simp only [signLength, head?_append_newline hb (d := '+') (by decide),
        head?_append_newline hb (d := '-') (by decide)]
    rw [List.cons_append, exponentLength, exponentLength, hsign,
      List.drop_append_of_le_length (signLength_le a),
      countWhile_append_of_stop (stops_of_newline hb (by decide))]

/-- A number does not go on over the end of a line. -/
theorem numberLexeme_append_newline (a : List Char) : numberLexeme (a ++ b) = numberLexeme a := by
  have hwhole : wholeOf (a ++ b) = wholeOf a :=
    takeWhile_append_of_stop (stops_of_newline hb (by decide)) a
  have hlength := length_afterWhole a
  have hafter : afterWhole (a ++ b) = afterWhole a ++ b := by
    rw [afterWhole, hwhole, List.drop_append_of_le_length (by omega), afterWhole]
  have hpoint : pointLength (a ++ b) = pointLength a := by
    simp only [pointLength, hafter, head?_append_newline hb (d := '.') (by decide)]
  have hpointLe := pointLength_le a
  have hfraction : fractionLength (a ++ b) = fractionLength a := by
    rw [fractionLength, hafter, hpoint, List.drop_append_of_le_length hpointLe,
      countWhile_append_of_stop (stops_of_newline hb (by decide)), fractionLength]
  have hfractionLe := countWhile_le Char.isDigit ((afterWhole a).drop (pointLength a))
  rw [List.length_drop] at hfractionLe
  have hmantissa : mantissaLength (a ++ b) = mantissaLength a := by
    rw [mantissaLength, hwhole, hfraction, hpoint, mantissaLength]
  have hmantissaLe : mantissaLength a ≤ a.length := by
    rw [mantissaLength, fractionLength]
    omega
  have hfigures : figuresLength (a ++ b) = figuresLength a := by
    rw [figuresLength, hmantissa, List.drop_append_of_le_length hmantissaLe,
      exponentLength_append_newline hb, figuresLength]
  have hfiguresLe : figuresLength a ≤ a.length := by
    have := exponentLength_le (a.drop (mantissaLength a))
    rw [List.length_drop] at this
    rw [figuresLength]
    omega
  rw [numberLexeme_eq, numberLexeme_eq, hwhole, hafter, hfraction, hfigures,
    List.take_append_of_le_length hfiguresLe, List.drop_append_of_le_length hfiguresLe]
  simp only [head?_append_newline hb (d := 'x') (by decide),
    head?_append_newline hb (d := 'L') (by decide)]
  split
  · next hx =>
    have hpos : 1 ≤ (afterWhole a).length := length_drop_le_of_head? hx.2 (n := 0)
    rw [List.drop_append_of_le_length hpos,
      countWhile_append_of_stop (stops_of_newline hb (by decide))]
  · rfl

end

end RoutineParams
