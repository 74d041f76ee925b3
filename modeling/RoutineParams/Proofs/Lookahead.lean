import RoutineParams.Proofs.Extent

/-!
# Looking ahead

The lexer looks at no more than three characters after a lexeme: those in which an exponent could
still begin. Where a text has so many after its first lexeme, whatever else follows leaves the
lexeme as it is.

    lexeme c s = .ok l → l.extra + 3 ≤ s.length → lexeme c (s ++ r) = .ok l       (lexeme_append)
-/

namespace RoutineParams

/-! ## The parts of a number -/

/-- The digits that a text starts with. -/
def wholeOf (u : List Char) : List Char := u.takeWhile Char.isDigit

/-- What follows them. -/
def afterWhole (u : List Char) : List Char := u.drop (wholeOf u).length

/-- The length of the point there, 0 where there is none. -/
def pointLength (u : List Char) : Nat := if (afterWhole u).head? = some '.' then 1 else 0

/-- How many digits follow the point. -/
def fractionLength (u : List Char) : Nat :=
  countWhile Char.isDigit ((afterWhole u).drop (pointLength u))

/-- The length of a number without its exponent. -/
def mantissaLength (u : List Char) : Nat :=
  (wholeOf u).length + fractionLength u + pointLength u

/-- The length of a number. -/
def figuresLength (u : List Char) : Nat :=
  mantissaLength u + exponentLength (u.drop (mantissaLength u))

/-! ## Lemmas: runs and heads -/

theorem takeWhile_append_of_lt {p : Char → Bool} {s : List Char} (r : List Char)
    (h : (s.takeWhile p).length < s.length) : (s ++ r).takeWhile p = s.takeWhile p := by
  rw [List.takeWhile_append, if_neg (by omega)]

theorem countWhile_append_of_lt {p : Char → Bool} {s : List Char} (r : List Char)
    (h : countWhile p s < s.length) : countWhile p (s ++ r) = countWhile p s := by
  unfold countWhile at h ⊢
  rw [takeWhile_append_of_lt r h]

theorem head?_append_of_lt {s : List Char} (r : List Char) (h : 0 < s.length) :
    (s ++ r).head? = s.head? := by
  cases s with
  | nil => simp at h
  | cons => rfl

/-! ## Lemmas: what is closed by a mark -/

theorem countToClose_append {escape : Option Char} {close : Char} {n : Nat} {s : List Char}
    {m : Nat} (r : List Char) (h : countToClose escape close n s = some m)
    (hm : m < n + s.length) : countToClose escape close n (s ++ r) = some m := by
  fun_induction countToClose escape close n s with
  | case1 => simp at h
  | case2 n => simp at h; simp at hm; omega
  | case3 => simp at h
  | case4 n s ih =>
    rw [List.cons_append, List.cons_append, countToClose, if_pos rfl, if_pos rfl]
    exact ih h (by simp only [List.length_cons] at hm; omega)
  | case5 n d s hd =>
    rw [List.cons_append, List.cons_append, countToClose, if_pos rfl, if_neg hd, h]
  | case6 n c d s hc he ih =>
    rw [List.cons_append, List.cons_append, countToClose, if_neg hc, if_pos he]
    exact ih h (by simp only [List.length_cons] at hm; omega)
  | case7 n c d s hc he ih =>
    rw [List.cons_append, List.cons_append, countToClose, if_neg hc, if_neg he]
    exact ih h (by simp only [List.length_cons] at hm ⊢; omega)

theorem quoted_append {form : Form} {fault : LexFault} {escape : Option Char} {close : Char}
    {before : Nat} {s : List Char} {l : Lexeme} (r : List Char)
    (h : quoted form fault escape close before s = .ok l) (hl : l.extra < before + s.length) :
    quoted form fault escape close before (s ++ r) = .ok l := by
  unfold quoted at h ⊢
  split at h
  · next n hn =>
    obtain rfl := Except.ok.inj h
    rw [countToClose_append r hn hl]
  · cases h

theorem countToCommentEnd_append {depth n : Nat} {s : List Char} {m : Nat} (r : List Char)
    (h : countToCommentEnd depth n s = some m) : countToCommentEnd depth n (s ++ r) = some m := by
  fun_induction countToCommentEnd depth n s with
  | case1 => simp at h
  | case2 => simp at h
  | case3 depth n c d s hopen ih =>
    simp only [List.cons_append, countToCommentEnd, if_pos hopen]
    exact ih h
  | case4 n c d s hopen hclose =>
    simp only [List.cons_append, countToCommentEnd, if_neg hopen, if_pos hclose]
    exact h
  | case5 n c d s hopen hclose depth ih =>
    simp only [List.cons_append, countToCommentEnd, if_neg hopen, if_pos hclose]
    exact ih h
  | case6 depth n c d s hopen hclose ih =>
    simp only [List.cons_append, countToCommentEnd, if_neg hopen, if_neg hclose]
    exact ih h

theorem add_length_le_countThrough {mark : List Char} {n : Nat} {s : List Char} {m : Nat}
    (h : countThrough mark n s = some m) : n + mark.length ≤ m := by
  fun_induction countThrough mark n s with
  | case1 => simp at h
  | case2 n c s hmark => simp at h; omega
  | case3 n c s hmark ih => have := ih h; omega

theorem countThrough_append {mark : List Char} {n : Nat} {s : List Char} {m : Nat} (r : List Char)
    (h : countThrough mark n s = some m) : countThrough mark n (s ++ r) = some m := by
  fun_induction countThrough mark n s with
  | case1 => simp at h
  | case2 n c s hmark =>
    have hp : mark.isPrefixOf (c :: (s ++ r)) = true := by
      rw [List.isPrefixOf_iff_prefix] at hmark ⊢
      exact hmark.trans (List.prefix_append (c :: s) r)
    rw [List.cons_append, countThrough, if_pos hp]
    exact h
  | case3 n c s hmark ih =>
    -- a mark that fits in later fits in here
    have hlow := add_length_le_countThrough h
    have hhigh := countThrough_le _ _ _ _ h
    have hp : ¬mark.isPrefixOf (c :: (s ++ r)) = true := by
      rw [List.isPrefixOf_iff_prefix] at hmark ⊢
      intro hp
      refine hmark (List.prefix_of_prefix_length_le hp (List.prefix_append (c :: s) r) ?_)
      rw [List.length_cons]
      omega
    rw [List.cons_append, countThrough, if_neg hp]
    exact ih h

/-! ## Lemmas: numbers -/

theorem numberLexeme_eq (u : List Char) :
    numberLexeme u =
      if wholeOf u = ['0'] ∧ (afterWhole u).head? = some 'x' then
        ⟨.hex, 1 + countWhile isHexDigit ((afterWhole u).drop 1)⟩
      else if (wholeOf u).length + fractionLength u = 0 then ⟨.sign .dot, 0⟩
      else ⟨.number (u.take (figuresLength u)),
        figuresLength u + (if (u.drop (figuresLength u)).head? = some 'L' then 1 else 0) - 1⟩ := rfl

theorem length_afterWhole (u : List Char) :
    (wholeOf u).length + (afterWhole u).length = u.length := by
  have : (wholeOf u).length ≤ u.length := countWhile_le _ _
  unfold afterWhole
  rw [List.length_drop]
  omega

theorem pointLength_le (u : List Char) : pointLength u ≤ (afterWhole u).length := by
  unfold pointLength
  split
  · next h => exact length_drop_le_of_head? h (n := 0)
  · exact Nat.zero_le _

theorem signLength_append_of_lt {s : List Char} (r : List Char) (h : 0 < s.length) :
    signLength (s ++ r) = signLength s := by
  unfold signLength
  rw [head?_append_of_lt r h]

theorem exponentLength_append {s : List Char} (r : List Char)
    (h : exponentLength s + 3 ≤ s.length) : exponentLength (s ++ r) = exponentLength s := by
  cases s with
  | nil => simp at h
  | cons e s =>
    rw [List.cons_append, exponentLength]
    rw [exponentLength] at h ⊢
    simp only [List.length_cons] at h
    split
    · next he =>
      rw [if_pos he] at h
      have hsign := signLength_append_of_lt r (s := s) (by omega)
      have hone : signLength s ≤ 1 := by unfold signLength; split <;> omega
      have hdigits : countWhile Char.isDigit (s.drop (signLength s) ++ r) =
          countWhile Char.isDigit (s.drop (signLength s)) := by
        apply countWhile_append_of_lt
        rw [List.length_drop]
        split at h <;> omega
      rw [hsign, List.drop_append_of_le_length (by omega), hdigits]
    · rfl

theorem wholeOf_append {u : List Char} (r : List Char) (h : (wholeOf u).length < u.length) :
    wholeOf (u ++ r) = wholeOf u ∧ afterWhole (u ++ r) = afterWhole u ++ r ∧
      pointLength (u ++ r) = pointLength u := by
  have hwhole : wholeOf (u ++ r) = wholeOf u := takeWhile_append_of_lt r h
  have hafter : afterWhole (u ++ r) = afterWhole u ++ r := by
    unfold afterWhole
    rw [hwhole, List.drop_append_of_le_length (by omega)]
  have hlen := length_afterWhole u
  refine ⟨hwhole, hafter, ?_⟩
  unfold pointLength
  rw [hafter, head?_append_of_lt r (by omega)]

theorem fractionLength_append {u : List Char} (r : List Char) (h : mantissaLength u < u.length) :
    fractionLength (u ++ r) = fractionLength u := by
  unfold mantissaLength at h
  obtain ⟨-, hafter, hpoint⟩ := wholeOf_append r (u := u) (by omega)
  have hlen := length_afterWhole u
  have hle := pointLength_le u
  unfold fractionLength at h ⊢
  rw [hafter, hpoint, List.drop_append_of_le_length hle, countWhile_append_of_lt]
  rw [List.length_drop]
  omega

theorem numberLexeme_append {u : List Char} (r : List Char)
    (h : (numberLexeme u).extra + 4 ≤ u.length) : numberLexeme (u ++ r) = numberLexeme u := by
  have hlen := length_afterWhole u
  rw [numberLexeme_eq] at h ⊢
  by_cases hx : wholeOf u = ['0'] ∧ (afterWhole u).head? = some 'x'
  · rw [if_pos hx] at h
    simp only at h
    have hone : (wholeOf u).length = 1 := by rw [hx.1]; rfl
    obtain ⟨hwhole, hafter, -⟩ := wholeOf_append r (u := u) (by omega)
    rw [numberLexeme_eq u, if_pos hx, hwhole, hafter, head?_append_of_lt r (by omega), if_pos hx,
      List.drop_append_of_le_length (by omega), countWhile_append_of_lt]
    rw [List.length_drop]
    omega
  rw [if_neg hx] at h
  by_cases hdigits : (wholeOf u).length + fractionLength u = 0
  · have hone : pointLength u ≤ 1 := by unfold pointLength; split <;> omega
    have hfraction := fractionLength_append r (u := u) (by
      rw [if_pos hdigits] at h
      simp only at h
      unfold mantissaLength
      omega)
    obtain ⟨hwhole, hafter, -⟩ := wholeOf_append r (u := u) (by omega)
    rw [numberLexeme_eq u, if_neg hx, if_pos hdigits, hwhole, hafter,
      head?_append_of_lt r (by omega), if_neg hx, hfraction, if_pos hdigits]
  · rw [if_neg hdigits] at h
    simp only at h
    have hmantissa : mantissaLength u ≤ figuresLength u := Nat.le_add_right _ _
    have hwholeLe : (wholeOf u).length ≤ mantissaLength u := by unfold mantissaLength; omega
    obtain ⟨hwhole, hafter, hpoint⟩ := wholeOf_append r (u := u) (by omega)
    have hfraction := fractionLength_append r (u := u) (by omega)
    have hsame : mantissaLength (u ++ r) = mantissaLength u := by
      unfold mantissaLength
      rw [hwhole, hfraction, hpoint]
    have hfigures : figuresLength (u ++ r) = figuresLength u := by
      unfold figuresLength at h ⊢
      rw [hsame, List.drop_append_of_le_length (by omega), exponentLength_append]
      rw [List.length_drop]
      omega
    rw [numberLexeme_eq u, if_neg hx, if_neg hdigits, hwhole, hafter,
      head?_append_of_lt r (by omega), if_neg hx, hfraction, if_neg hdigits, hfigures,
      List.take_append_of_le_length (by omega), List.drop_append_of_le_length (by omega),
      head?_append_of_lt r (by rw [List.length_drop]; omega)]

/-! ## Lemmas: words and signs -/

theorem dollarLexeme_append {s : List Char} {l : Lexeme} (r : List Char)
    (h : dollarLexeme s = .ok l) (hl : l.extra < s.length) : dollarLexeme (s ++ r) = .ok l := by
  unfold dollarLexeme at h ⊢
  simp only at h ⊢
  have hname : (s.takeWhile fun c => isAlphanumeric c || c == '_').length < s.length := by
    split at h
    · next body hbody =>
      have := congrArg List.length hbody
      rw [List.length_drop, List.length_cons] at this
      omega
    · obtain rfl := Except.ok.inj h
      exact hl
  rw [takeWhile_append_of_lt r hname, List.drop_append_of_le_length (by omega)]
  generalize s.takeWhile (fun c => isAlphanumeric c || c == '_') = name at *
  split at h
  · next body hbody =>
    rw [hbody, List.cons_append]
    simp only
    split at h
    · next n hn => rw [countThrough_append r hn]; exact h
    · cases h
  · next hbody =>
    split
    · next body hr =>
      exfalso
      obtain ⟨d, t, hd⟩ : ∃ d t, s.drop name.length = d :: t := by
        cases hdrop : s.drop name.length with
        | nil => rw [List.drop_eq_nil_iff] at hdrop; omega
        | cons d t => exact ⟨d, t, rfl⟩
      rw [hd, List.cons_append] at hr
      obtain ⟨rfl, -⟩ := List.cons.inj hr
      exact hbody t hd
    · exact h

theorem hashLexeme_append {s : List Char} (r : List Char)
    (h : (hashLexeme s).extra + 2 ≤ s.length) : hashLexeme (s ++ r) = hashLexeme s := by
  cases s with
  | nil => simp at h
  | cons d s =>
    rw [List.cons_append]
    unfold hashLexeme at h ⊢
    simp only [List.length_cons] at h ⊢
    by_cases h1 : d = ' '
    · rw [if_pos h1, if_pos h1]
    by_cases h2 : d = '-'
    · rw [if_neg h1, if_neg h1, if_pos h2, if_pos h2]
    by_cases h3 : d = '>'
    · rw [if_neg h1, if_neg h1, if_neg h2, if_neg h2, if_pos h3, if_pos h3] at *
      rw [head?_append_of_lt r (by split at h <;> omega)]
    · simp only [if_neg h1, if_neg h2, if_neg h3] at h ⊢
      have hlt : countWhile isWordPart s < s.length := by omega
      rw [takeWhile_append_of_lt r hlt, countWhile_append_of_lt r hlt]

theorem atLexeme_append {s : List Char} (r : List Char)
    (h : (atLexeme s).extra + 2 ≤ s.length) : atLexeme (s ++ r) = atLexeme s := by
  match s with
  | [] => simp at h
  | [d] => simp at h
  | d :: e :: s =>
    unfold atLexeme at h ⊢
    simp only [List.cons_append, List.length_cons] at h ⊢
    by_cases h1 : d = ' ' ∨ d = '\'' ∨ d = '"' ∨ d = '\x60'
    · rw [if_pos h1, if_pos h1]
    by_cases h2 : d = '>' ∨ d = '?'
    · rw [if_neg h1, if_neg h1, if_pos h2, if_pos h2]
    by_cases h3 : d = '@'
    · by_cases h4 : e = ' '
      · simp only [if_neg h1, if_neg h2, if_pos h3, if_pos h4]
      · simp only [if_neg h1, if_neg h2, if_pos h3, if_neg h4] at h ⊢
        have hlt : countWhile isWordPart s < s.length := by omega
        rw [takeWhile_append_of_lt r hlt, countWhile_append_of_lt r hlt]
    · simp only [if_neg h1, if_neg h2, if_neg h3] at h ⊢
      have hlt : countWhile isWordPart (e :: s) < (e :: s).length := by
        rw [List.length_cons]; omega
      rw [← List.cons_append, takeWhile_append_of_lt r hlt, countWhile_append_of_lt r hlt]

theorem length_sign : ∀ sign ∈ signs, 1 ≤ sign.1.length ∧ sign.1.length ≤ 4 := by decide

theorem isPrefixOf_append {sign u : List Char} (r : List Char) (h : sign.length ≤ u.length) :
    sign.isPrefixOf (u ++ r) = sign.isPrefixOf u := by
  rw [Bool.eq_iff_iff, List.isPrefixOf_iff_prefix, List.isPrefixOf_iff_prefix]
  exact ⟨fun hp => List.prefix_of_prefix_length_le hp (List.prefix_append u r) h,
    fun hp => hp.trans (List.prefix_append u r)⟩

theorem signLexeme?_append {u : List Char} (r : List Char) (h : 4 ≤ u.length) :
    signLexeme? (u ++ r) = signLexeme? u := by
  have hsame : ∀ sign ∈ signs, sign.1.isPrefixOf (u ++ r) = sign.1.isPrefixOf u :=
    fun sign hsign => isPrefixOf_append r (Nat.le_trans (length_sign sign hsign).2 h)
  unfold signLexeme?
  rw [← List.head?_filter, ← List.head?_filter, List.filter_congr hsame]

/-! ## Top theorem (proved from the lemmas above) -/

/-- **A lexeme stays** whatever follows the three characters after it. -/
theorem lexeme_append {c : Char} {s : List Char} {l : Lexeme} (r : List Char)
    (h : lexeme c s = .ok l) (hl : l.extra + 3 ≤ s.length) : lexeme c (s ++ r) = .ok l := by
  have hhead : (s ++ r).head? = s.head? := head?_append_of_lt r (by omega)
  have hdrop : (s ++ r).drop 1 = s.drop 1 ++ r := List.drop_append_of_le_length (by omega)
  have hrest : (s.drop 1).length = s.length - 1 := List.length_drop
  refine lexeme_eq_iff.2 ?_
  cases lexeme_eq_iff.1 h with
  | lineBreak hc hr => exact .lineBreak hc (by rwa [hhead])
  | blank hc hreturn hr => exact .blank hc hreturn hr
  | national hc hs hr =>
    exact .national hc (hhead.trans hs) (by rw [hdrop]; exact quoted_append r hr (by omega))
  | hexadecimal hc hs hr =>
    exact .hexadecimal hc (hhead.trans hs) (by rw [hdrop]; exact quoted_append r hr (by omega))
  | string hc hr => exact .string hc (quoted_append r hr (by omega))
  | doubleQuoted hc hr => exact .doubleQuoted hc (quoted_append r hr (by omega))
  | bracketed hc hr => exact .bracketed hc (quoted_append r hr (by omega))
  | number hc hr =>
    obtain rfl := Except.ok.inj hr
    refine .number hc ?_
    rw [← List.cons_append, numberLexeme_append r (by rw [List.length_cons]; omega)]
  | lineComment hc hs hr =>
    obtain rfl := Except.ok.inj hr
    -- a comment that goes on to the end has nothing after it
    have hbody : countWhile (· != '\n') s < s.length := by
      refine Nat.lt_of_not_le fun hend => ?_
      simp only [if_neg (Nat.not_lt.2 hend)] at hl
      omega
    refine .lineComment hc (hhead.trans hs) ?_
    rw [countWhile_append_of_lt r hbody, if_pos hbody,
      if_pos (by rw [List.length_append]; omega)]
  | blockComment hc hs hn hr =>
    exact .blockComment hc (hhead.trans hs) (hdrop ▸ countToCommentEnd_append r hn) hr
  | openComment _ _ _ hr => cases hr
  | numberSign hc hr =>
    obtain rfl := Except.ok.inj hr
    exact .numberSign hc (by rw [hashLexeme_append r (by omega)])
  | atSign hc hr =>
    obtain rfl := Except.ok.inj hr
    exact .atSign hc (by rw [atLexeme_append r (by omega)])
  | dollarSign hc hr => exact .dollarSign hc (dollarLexeme_append r hr (by omega))
  | questionMark hc hr =>
    obtain rfl := Except.ok.inj hr
    simp only at hl
    exact .questionMark hc (by rw [countWhile_append_of_lt r (by omega)])
  | word hc hs hr =>
    obtain rfl := Except.ok.inj hr
    have hlt : countWhile isWordPart s < s.length := by simp only at hl; omega
    refine .word hc (fun hmem => hhead ▸ hs hmem) ?_
    rw [takeWhile_append_of_lt r hlt, countWhile_append_of_lt r hlt]
  | sign hblank hdigit hletter hmarks hline hblock hr =>
    refine .sign hblank hdigit hletter hmarks (fun hc => hhead ▸ hline hc)
      (fun hc => hhead ▸ hblock hc) ?_
    rwa [← List.cons_append, signLexeme?_append r (by rw [List.length_cons]; omega)]

end RoutineParams
