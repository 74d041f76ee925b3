import RoutineParams.Proofs.FirstLexeme

/-!
# The extent of a lexeme

No lexeme reaches beyond its text: as many characters follow its first one in the text as the
lexer counts.

    lexeme c s = .ok l → l.extra ≤ s.length                                    (lexeme_extra_le)
-/

namespace RoutineParams

/-! ## Lemmas -/

theorem countWhile_le (p : Char → Bool) (s : List Char) : countWhile p s ≤ s.length :=
  (List.takeWhile_prefix p).length_le

theorem countToClose_bounds (escape : Option Char) (close : Char) (n : Nat) (s : List Char)
    (m : Nat) (h : countToClose escape close n s = some m) : n < m ∧ m ≤ n + s.length := by
  fun_induction countToClose escape close n s with
  | case1 => simp at h
  | case2 n => simp at h; simp; omega
  | case3 => simp at h
  | case4 n s ih => have := ih h; simp only [List.length_cons]; omega
  | case5 n d s hd => simp at h; simp only [List.length_cons]; omega
  | case6 n c d s hc he ih => have := ih h; simp only [List.length_cons]; omega
  | case7 n c d s hc he ih => have := ih h; simp only [List.length_cons] at *; omega

theorem countToCommentEnd_bounds (depth n : Nat) (s : List Char) (m : Nat)
    (h : countToCommentEnd depth n s = some m) : n < m ∧ m ≤ n + s.length := by
  fun_induction countToCommentEnd depth n s with
  | case1 => simp at h
  | case2 => simp at h
  | case3 depth n c d s hopen ih => have := ih h; simp only [List.length_cons]; omega
  | case4 n c d s hopen hclose => simp at h; simp only [List.length_cons]; omega
  | case5 n c d s hopen hclose depth ih => have := ih h; simp only [List.length_cons]; omega
  | case6 depth n c d s hopen hclose ih => have := ih h; simp only [List.length_cons] at *; omega

theorem countThrough_le (mark : List Char) (n : Nat) (s : List Char) (m : Nat)
    (h : countThrough mark n s = some m) : m ≤ n + s.length := by
  fun_induction countThrough mark n s with
  | case1 => simp at h
  | case2 n c s hmark =>
    have hle := (List.isPrefixOf_iff_prefix.1 hmark).length_le
    have hm := Option.some.inj h
    omega
  | case3 n c s hmark ih => have := ih h; simp only [List.length_cons]; omega

theorem quoted_extra_le {form : Form} {fault : LexFault} {escape : Option Char} {close : Char}
    {before : Nat} {s : List Char} {l : Lexeme}
    (h : quoted form fault escape close before s = .ok l) : l.extra ≤ before + s.length := by
  unfold quoted at h
  split at h
  · next n hn =>
    obtain rfl := Except.ok.inj h
    exact (countToClose_bounds _ _ _ _ _ hn).2
  · cases h

theorem length_drop_le_of_head? {s : List Char} {n : Nat} {c : Char}
    (h : (s.drop n).head? = some c) : n + 1 ≤ s.length := by
  rw [List.head?_drop] at h
  obtain ⟨hlt, -⟩ := List.getElem?_eq_some_iff.1 h
  omega

theorem signLength_le (s : List Char) : signLength s ≤ s.length := by
  unfold signLength
  split
  · next h => rcases h with h | h <;> exact length_drop_le_of_head? h (n := 0)
  · exact Nat.zero_le _

theorem exponentLength_le (s : List Char) : exponentLength s ≤ s.length := by
  cases s with
  | nil => exact Nat.le_refl 0
  | cons e s =>
    have hsign := signLength_le s
    have hdigits := countWhile_le Char.isDigit (s.drop (signLength s))
    rw [List.length_drop] at hdigits
    rw [exponentLength]
    split
    · split
      · exact Nat.zero_le _
      · next digits hd =>
        rw [hd] at hdigits
        rw [List.length_cons]
        omega
    · exact Nat.zero_le _

theorem numberLexeme_extra_le (c : Char) (s : List Char) :
    (numberLexeme (c :: s)).extra ≤ s.length := by
  unfold numberLexeme
  simp only
  have hwhole : ((c :: s).takeWhile Char.isDigit).length ≤ (c :: s).length :=
    countWhile_le Char.isDigit (c :: s)
  generalize (c :: s).takeWhile Char.isDigit = whole at *
  split
  · next hx =>
    have h1 := length_drop_le_of_head? hx.2
    have h2 := countWhile_le isHexDigit (((c :: s).drop whole.length).drop 1)
    have hone : whole.length = 1 := by rw [hx.1]; rfl
    rw [List.length_cons] at h1
    rw [List.length_drop, List.length_drop, List.length_cons] at h2
    simp only
    omega
  · generalize hpoint : (if ((c :: s).drop whole.length).head? = some '.' then 1 else 0) = point
    have hpoint' : whole.length + point ≤ (c :: s).length := by
      split at hpoint
      · next hdot => have := length_drop_le_of_head? hdot; omega
      · omega
    have hfraction := countWhile_le Char.isDigit (((c :: s).drop whole.length).drop point)
    generalize countWhile Char.isDigit (((c :: s).drop whole.length).drop point) = fraction at *
    split
    · simp
    · have hexp := exponentLength_le ((c :: s).drop (whole.length + fraction + point))
      generalize exponentLength ((c :: s).drop (whole.length + fraction + point)) = exponent at *
      have hlong : ∀ n, n ≤ (c :: s).length →
          n + (if ((c :: s).drop n).head? = some 'L' then 1 else 0) ≤ (c :: s).length := by
        intro n hn
        split
        · next hl => exact length_drop_le_of_head? hl
        · exact hn
      have h := hlong (whole.length + fraction + point + exponent) (by
        simp only [List.length_drop] at *; omega)
      simp only [List.length_cons] at *
      omega

theorem dollarLexeme_extra_le {s : List Char} {l : Lexeme} (h : dollarLexeme s = .ok l) :
    l.extra ≤ s.length := by
  unfold dollarLexeme at h
  simp only at h
  have hname := countWhile_le (fun c => isAlphanumeric c || c == '_') s
  unfold countWhile at hname
  generalize s.takeWhile (fun c => isAlphanumeric c || c == '_') = name at *
  split at h
  · next body hbody =>
    have hlen := congrArg List.length hbody
    rw [List.length_drop, List.length_cons] at hlen
    split at h
    · next n hn =>
      obtain rfl := Except.ok.inj h
      have := countThrough_le _ _ _ _ hn
      simp only
      omega
    · cases h
  · obtain rfl := Except.ok.inj h
    exact hname

theorem hashLexeme_extra_le (s : List Char) : (hashLexeme s).extra ≤ s.length := by
  cases s with
  | nil => simp [hashLexeme]
  | cons d s =>
    have hpart := countWhile_le isWordPart s
    unfold hashLexeme
    simp only [List.length_cons]
    split
    · simp
    · split
      · simp
      · split
        · split
          · next hgt =>
            cases s with
            | nil => simp at hgt
            | cons => simp
          · simp
        · simp only
          omega

theorem atLexeme_extra_le (s : List Char) : (atLexeme s).extra ≤ s.length := by
  cases s with
  | nil => simp [atLexeme]
  | cons d s =>
    have hpart := countWhile_le isWordPart s
    unfold atLexeme
    simp only [List.length_cons]
    split
    · simp
    · split
      · simp
      · split
        · split
          · simp
          · next e s =>
            have hpart := countWhile_le isWordPart s
            split
            · simp
            · simp only [List.length_cons]
              omega
        · simp only
          omega

theorem signLexeme?_extra_le {c : Char} {s : List Char} {l : Lexeme}
    (h : signLexeme? (c :: s) = some l) : l.extra ≤ s.length := by
  unfold signLexeme? at h
  obtain ⟨sign, hfind, rfl⟩ := Option.map_eq_some_iff.1 h
  have hprefix := List.find?_some hfind
  have hle := (List.isPrefixOf_iff_prefix.1 hprefix).length_le
  rw [List.length_cons] at hle
  exact Nat.sub_le_of_le_add hle

theorem length_drop_one_add {s : List Char} {c : Char} (h : s.head? = some c) :
    1 + (s.drop 1).length = s.length := by
  cases s with
  | nil => simp at h
  | cons => simp; omega

/-! ## Top theorem (proved from the lemmas above) -/

/-- Every lexeme lies within its text. -/
theorem lexeme_extra_le {c : Char} {s : List Char} {l : Lexeme} (h : lexeme c s = .ok l) :
    l.extra ≤ s.length := by
  cases lexeme_eq_iff.1 h with
  | lineBreak _ hr =>
    obtain rfl := Except.ok.inj hr
    simp only
    split
    · next hhead => have := length_drop_one_add hhead; omega
    · exact Nat.zero_le _
  | blank _ _ hr =>
    obtain rfl := Except.ok.inj hr
    exact Nat.zero_le _
  | national _ hs hr | hexadecimal _ hs hr =>
    have := quoted_extra_le hr
    have := length_drop_one_add hs
    omega
  | string _ hr | doubleQuoted _ hr | bracketed _ hr =>
    have := quoted_extra_le hr
    omega
  | number _ hr =>
    obtain rfl := Except.ok.inj hr
    exact numberLexeme_extra_le c s
  | lineComment _ _ hr =>
    obtain rfl := Except.ok.inj hr
    have := countWhile_le (· != '\n') s
    simp only
    split <;> omega
  | blockComment _ hs hn hr =>
    obtain rfl := Except.ok.inj hr
    have := (countToCommentEnd_bounds _ _ _ _ hn).2
    have := length_drop_one_add hs
    simp only
    omega
  | openComment _ _ _ hr => cases hr
  | numberSign _ hr =>
    obtain rfl := Except.ok.inj hr
    exact hashLexeme_extra_le s
  | atSign _ hr =>
    obtain rfl := Except.ok.inj hr
    exact atLexeme_extra_le s
  | dollarSign _ hr => exact dollarLexeme_extra_le hr
  | questionMark _ hr =>
    obtain rfl := Except.ok.inj hr
    exact countWhile_le isNumeric s
  | word _ _ hr =>
    obtain rfl := Except.ok.inj hr
    exact countWhile_le isWordPart s
  | sign _ _ _ _ _ _ hr =>
    obtain rfl := Except.ok.inj hr
    cases hsign : signLexeme? (c :: s) with
    | none => exact Nat.zero_le _
    | some l => exact signLexeme?_extra_le hsign

end RoutineParams
