import RoutineParams.Proofs.RunsCutOff

/-!
# Cutting a text off

A text may be cut off behind any of its lexemes: what the lexer looks at after a lexeme never makes
it longer unless it belongs to it.

    lexeme c (s ++ r) = .ok l → l.extra ≤ s.length → lexeme c s = .ok l        (lexeme_of_append)
-/

namespace RoutineParams

/-! ## Lemmas: numbers -/

theorem exponentLength_of_append {s r : List Char} (h : exponentLength (s ++ r) ≤ s.length) :
    exponentLength s = exponentLength (s ++ r) := by
  cases s with
  | nil => exact (Nat.le_zero.1 h).symm
  | cons e s =>
    rw [List.cons_append, exponentLength] at h ⊢
    rw [exponentLength]
    simp only [List.length_cons] at h
    split
    · next he =>
      rw [if_pos he] at h
      rcases Nat.eq_zero_or_pos s.length with hs | hs
      · -- there is no place for a digit
        obtain rfl := List.eq_nil_of_length_eq_zero hs
        simp only [List.drop_nil, countWhile, List.takeWhile_nil, List.length_nil]
        split
        · rfl
        · next digits hdigits =>
          rw [countWhile] at h
          rw [hdigits] at h
          simp only [List.length_nil] at h
          omega
      · have hsign := signLength_append_of_lt r hs
        have hone : signLength s ≤ 1 := by unfold signLength; split <;> omega
        rw [hsign, List.drop_append_of_le_length (by omega)] at h ⊢
        rw [countWhile_of_append]
        rw [List.length_drop]
        split at h <;> omega
    · rfl

theorem wholeOf_of_append {u r : List Char} (h : (wholeOf (u ++ r)).length ≤ u.length) :
    wholeOf u = wholeOf (u ++ r) ∧ afterWhole (u ++ r) = afterWhole u ++ r := by
  have hwhole : wholeOf u = wholeOf (u ++ r) := takeWhile_of_append h
  refine ⟨hwhole, ?_⟩
  unfold afterWhole
  rw [hwhole, List.drop_append_of_le_length h]

theorem mantissaLength_of_append {u r : List Char} (h : mantissaLength (u ++ r) ≤ u.length) :
    pointLength u = pointLength (u ++ r) ∧ fractionLength u = fractionLength (u ++ r) := by
  unfold mantissaLength at h
  obtain ⟨hwhole, hafter⟩ := wholeOf_of_append (u := u) (r := r) (by omega)
  have hlen := length_afterWhole u
  have hpoint : pointLength u = pointLength (u ++ r) := by
    unfold pointLength at h ⊢
    rw [hafter] at h ⊢
    by_cases hdot : (afterWhole u ++ r).head? = some '.'
    · rw [if_pos hdot] at h ⊢
      rw [if_pos]
      rwa [← head?_append_of_lt r (by rw [← hwhole] at h; omega)]
    · rw [if_neg hdot, if_neg fun hd => hdot (head?_of_append hd)]
  refine ⟨hpoint, ?_⟩
  have hle := pointLength_le u
  unfold fractionLength at h ⊢
  rw [← hpoint, hafter, List.drop_append_of_le_length hle, ← hwhole] at h
  rw [← hpoint, hafter, List.drop_append_of_le_length hle, countWhile_of_append]
  rw [List.length_drop]
  omega

theorem numberLexeme_of_append {u r : List Char} (hu : u ≠ [])
    (h : (numberLexeme (u ++ r)).extra + 1 ≤ u.length) :
    numberLexeme u = numberLexeme (u ++ r) := by
  have hlen := length_afterWhole u
  rw [numberLexeme_eq (u ++ r)] at h ⊢
  by_cases hx : wholeOf (u ++ r) = ['0'] ∧ (afterWhole (u ++ r)).head? = some 'x'
  · rw [if_pos hx] at h ⊢
    simp only at h
    have hone : (wholeOf (u ++ r)).length = 1 := by rw [hx.1]; rfl
    obtain ⟨hwhole, hafter⟩ := wholeOf_of_append (u := u) (r := r) (by omega)
    rw [← hwhole] at hx hone
    rw [hafter] at hx h ⊢
    have hhead := head?_append_of_lt r (s := afterWhole u) (by omega)
    rw [hhead] at hx
    rw [List.drop_append_of_le_length (by omega)] at h ⊢
    rw [numberLexeme_eq, if_pos hx, countWhile_of_append]
    rw [List.length_drop]
    omega
  rw [if_neg hx] at h ⊢
  have hnot (hwhole : wholeOf u = wholeOf (u ++ r))
      (hafter : afterWhole (u ++ r) = afterWhole u ++ r) :
      ¬(wholeOf u = ['0'] ∧ (afterWhole u).head? = some 'x') := by
    rw [hwhole]
    exact fun hu => hx ⟨hu.1, by rw [hafter]; exact head?_of_append hu.2⟩
  by_cases hdigits : (wholeOf (u ++ r)).length + fractionLength (u ++ r) = 0
  · rw [if_pos hdigits]
    have hone : pointLength (u ++ r) ≤ 1 := by unfold pointLength; split <;> omega
    have hpos := List.length_pos_iff.2 hu
    obtain ⟨hwhole, hafter⟩ := wholeOf_of_append (u := u) (r := r) (by omega)
    obtain ⟨-, hfraction⟩ := mantissaLength_of_append (u := u) (r := r) (by
      unfold mantissaLength
      omega)
    rw [numberLexeme_eq, if_neg (hnot hwhole hafter), hwhole, hfraction, if_pos hdigits]
  · rw [if_neg hdigits] at h ⊢
    simp only at h
    have hmantissa : mantissaLength (u ++ r) ≤ figuresLength (u ++ r) := Nat.le_add_right _ _
    have hwholeLe : (wholeOf (u ++ r)).length ≤ mantissaLength (u ++ r) := by
      unfold mantissaLength; omega
    obtain ⟨hwhole, hafter⟩ := wholeOf_of_append (u := u) (r := r) (by omega)
    obtain ⟨hpoint, hfraction⟩ := mantissaLength_of_append (u := u) (r := r) (by omega)
    have hsame : mantissaLength u = mantissaLength (u ++ r) := by
      unfold mantissaLength
      rw [hwhole, hfraction, hpoint]
    have hfigures : figuresLength u = figuresLength (u ++ r) := by
      unfold figuresLength at h ⊢
      rw [hsame]
      rw [List.drop_append_of_le_length (by omega)] at h ⊢
      rw [exponentLength_of_append]
      rw [List.length_drop]
      omega
    have hlong : (u.drop (figuresLength u)).head? = some 'L' ↔
        ((u ++ r).drop (figuresLength u)).head? = some 'L' := by
      rw [List.drop_append_of_le_length (by omega)]
      refine ⟨head?_of_append, fun hl => ?_⟩
      rw [← hfigures, List.drop_append_of_le_length (by omega), if_pos hl] at h
      rwa [← head?_append_of_lt r (by rw [List.length_drop]; omega)]
    rw [numberLexeme_eq, if_neg (hnot hwhole hafter), hwhole, hfraction, if_neg hdigits,
      ← hfigures, List.take_append_of_le_length (by omega)]
    simp only [hlong]

/-! ## Lemmas: words and signs -/

theorem dollarLexeme_of_append {s r : List Char} {l : Lexeme}
    (h : dollarLexeme (s ++ r) = .ok l) (hl : l.extra ≤ s.length) : dollarLexeme s = .ok l := by
  unfold dollarLexeme at h ⊢
  simp only at h ⊢
  have hname : ((s ++ r).takeWhile fun c => isAlphanumeric c || c == '_').length ≤ s.length := by
    split at h
    · split at h
      · next n hn =>
        obtain rfl := Except.ok.inj h
        have := add_length_le_countThrough hn
        simp only at hl
        omega
      · cases h
    · obtain rfl := Except.ok.inj h
      exact hl
  rw [takeWhile_of_append hname]
  generalize (s ++ r).takeWhile (fun c => isAlphanumeric c || c == '_') = name at *
  rw [List.drop_append_of_le_length hname] at h
  split at h
  · next body hbody =>
    split at h
    · next n hn =>
      obtain rfl := Except.ok.inj h
      simp only at hl
      have hlow := add_length_le_countThrough hn
      cases hdrop : s.drop name.length with
      | nil =>
        -- the second dollar sign would be out of reach
        rw [List.drop_eq_nil_iff] at hdrop
        omega
      | cons d t =>
        have hlen := congrArg List.length hdrop
        rw [List.length_drop, List.length_cons] at hlen
        rw [hdrop, List.cons_append] at hbody
        obtain ⟨rfl, rfl⟩ := List.cons.inj hbody
        simp only
        rw [countThrough_of_append (by simp) hn (by omega)]
    · cases h
  · next hbody =>
    split
    · next body hs =>
      rw [hs, List.cons_append] at hbody
      exact absurd rfl (hbody _)
    · exact h

theorem hashLexeme_of_append {s r : List Char} (h : (hashLexeme (s ++ r)).extra ≤ s.length) :
    hashLexeme s = hashLexeme (s ++ r) := by
  cases s with
  | nil =>
    cases r with
    | nil => rfl
    | cons d r =>
      rw [List.nil_append] at h ⊢
      unfold hashLexeme at h ⊢
      simp only [List.length_nil] at h ⊢
      split at h
      · next h1 => rw [if_pos h1]
      · split at h
        · simp at h
        · split at h
          · split at h <;> simp at h
          · simp at h
  | cons d s =>
    rw [List.cons_append] at h ⊢
    unfold hashLexeme at h ⊢
    simp only [List.length_cons] at h ⊢
    by_cases h1 : d = ' '
    · rw [if_pos h1, if_pos h1]
    by_cases h2 : d = '-'
    · rw [if_neg h1, if_neg h1, if_pos h2, if_pos h2]
    by_cases h3 : d = '>'
    · simp only [if_neg h1, if_neg h2, if_pos h3] at h ⊢
      by_cases hgt : (s ++ r).head? = some '>'
      · rw [if_pos hgt] at h ⊢
        rw [if_pos]
        rwa [← head?_append_of_lt r (by omega)]
      · rw [if_neg hgt, if_neg fun hs => hgt (head?_of_append hs)]
    · simp only [if_neg h1, if_neg h2, if_neg h3] at h ⊢
      have hle : countWhile isWordPart (s ++ r) ≤ s.length := by omega
      rw [takeWhile_of_append hle, countWhile_of_append hle]

theorem atLexeme_of_append {s r : List Char} (h : (atLexeme (s ++ r)).extra ≤ s.length) :
    atLexeme s = atLexeme (s ++ r) := by
  cases s with
  | nil =>
    cases r with
    | nil => rfl
    | cons d r =>
      rw [List.nil_append] at h ⊢
      unfold atLexeme at h ⊢
      simp only [List.length_nil] at h ⊢
      split at h
      · next h1 => rw [if_pos h1]
      · repeat' split at h
        all_goals simp at h
  | cons d s =>
    rw [List.cons_append] at h ⊢
    unfold atLexeme at h ⊢
    simp only [List.length_cons] at h ⊢
    by_cases h1 : d = ' ' ∨ d = '\'' ∨ d = '"' ∨ d = '\x60'
    · rw [if_pos h1, if_pos h1]
    by_cases h2 : d = '>' ∨ d = '?'
    · rw [if_neg h1, if_neg h1, if_pos h2, if_pos h2]
    by_cases h3 : d = '@'
    · simp only [if_neg h1, if_neg h2, if_pos h3] at h ⊢
      cases s with
      | nil =>
        cases r with
        | nil => rfl
        | cons e r =>
          simp only [List.nil_append, List.length_nil] at h ⊢
          split at h
          · next h4 => rw [if_pos h4]
          · simp only at h
            omega
      | cons e s =>
        simp only [List.cons_append, List.length_cons] at h ⊢
        by_cases h4 : e = ' '
        · rw [if_pos h4, if_pos h4]
        · simp only [if_neg h4] at h ⊢
          have hle : countWhile isWordPart (s ++ r) ≤ s.length := by omega
          rw [takeWhile_of_append hle, countWhile_of_append hle]
    · simp only [if_neg h1, if_neg h2, if_neg h3] at h ⊢
      have hle : countWhile isWordPart (s ++ r) ≤ s.length := by omega
      rw [takeWhile_of_append hle, countWhile_of_append hle]

theorem signLexeme?_of_append {u r : List Char}
    (h : ∀ l ∈ signLexeme? (u ++ r), l.extra + 1 ≤ u.length) :
    signLexeme? u = signLexeme? (u ++ r) := by
  have hmono : ∀ sign : List Char, sign.isPrefixOf u = true → sign.isPrefixOf (u ++ r) = true := by
    intro sign hp
    rw [List.isPrefixOf_iff_prefix] at hp ⊢
    exact hp.trans (List.prefix_append u r)
  unfold signLexeme? at h ⊢
  congr 1
  cases hfind : signs.find? fun sign => sign.1.isPrefixOf (u ++ r) with
  | none =>
    exact List.find?_eq_none.2 fun sign hsign hp =>
      List.find?_eq_none.1 hfind sign hsign (hmono sign.1 hp)
  | some sign =>
    rw [hfind] at h
    have hlen := h _ rfl
    obtain ⟨hp, before, after, hsigns, hbefore⟩ := List.find?_eq_some_iff_append.1 hfind
    have hone := (length_sign sign (List.mem_of_find?_eq_some hfind)).1
    simp only at hlen
    rw [isPrefixOf_append r (by omega)] at hp
    refine List.find?_eq_some_iff_append.2 ⟨hp, before, after, hsigns, fun x hx => ?_⟩
    have := hbefore x hx
    cases hq : x.1.isPrefixOf u with
    | false => rfl
    | true => rw [hmono x.1 hq] at this; cases this

/-! ## Lemmas: comments -/

/-- The rest of a comment that ends with its line. One that goes on to the end is cut off behind the
whole text only. -/
theorem restOfLine_of_append {s r : List Char} {n : Nat} (hdash : (s ++ r).head? = some '-')
    (h : (if countWhile (· != '\n') (s ++ r) < (s ++ r).length
      then countWhile (· != '\n') (s ++ r) + 1 else countWhile (· != '\n') (s ++ r)) = n)
    (hn : n ≤ s.length) :
    s.head? = some '-' ∧
      (if countWhile (· != '\n') s < s.length
        then countWhile (· != '\n') s + 1 else countWhile (· != '\n') s) = n := by
  have hle := countWhile_le (· != '\n') (s ++ r)
  by_cases hbody : countWhile (· != '\n') (s ++ r) < (s ++ r).length
  · rw [if_pos hbody] at h
    refine ⟨(head?_iff_of_append hn fun _ => by omega).2 hdash, ?_⟩
    rw [countWhile_of_append (r := r) (by omega), if_pos (by omega), h]
  · rw [if_neg hbody] at h
    rw [List.length_append] at hbody hle
    obtain rfl : r = [] := List.eq_nil_of_length_eq_zero (by omega)
    rw [List.append_nil] at hdash hbody h
    exact ⟨hdash, by rw [if_neg (by simpa using hbody), h]⟩

/-! ## Top theorem (proved from the lemmas above) -/

/-- **A lexeme stays** where the text is cut off behind it. -/
theorem lexeme_of_append {c : Char} {s r : List Char} {l : Lexeme}
    (h : lexeme c (s ++ r) = .ok l) (hl : l.extra ≤ s.length) : lexeme c s = .ok l := by
  -- a quote, hyphen or asterisk after the first character belongs to the lexeme
  have hquote : ∀ {form : Form} {escape : Option Char},
      (s ++ r).head? = some '\'' →
      quoted form .unterminatedString escape '\'' 1 ((s ++ r).drop 1) = .ok l →
      s.head? = some '\'' ∧ quoted form .unterminatedString escape '\'' 1 (s.drop 1) = .ok l := by
    intro form escape hhead hq
    have hlt := lt_extra_of_quoted hq
    rw [List.drop_append_of_le_length (by omega)] at hq
    refine ⟨(head?_iff_of_append hl fun _ => by omega).2 hhead, quoted_of_append hq ?_⟩
    rw [List.length_drop]
    omega
  have hmono : ∀ {d : Char}, (s ++ r).head? ≠ some d → s.head? ≠ some d :=
    fun hne hs => hne (head?_of_append hs)
  refine lexeme_eq_iff.2 ?_
  cases lexeme_eq_iff.1 h with
  | lineBreak hc hr =>
    obtain rfl := Except.ok.inj hr
    simp only at hl
    have hhead : s.head? = some '\n' ↔ (s ++ r).head? = some '\n' :=
      head?_iff_of_append hl fun hn => Nat.le_of_eq (if_pos hn).symm
    exact .lineBreak hc (by simp only [hhead])
  | blank hc hreturn hr => exact .blank hc hreturn hr
  | national hc hs hr =>
    obtain ⟨hhead, hq⟩ := hquote hs hr
    exact .national hc hhead hq
  | hexadecimal hc hs hr =>
    obtain ⟨hhead, hq⟩ := hquote hs hr
    exact .hexadecimal hc hhead hq
  | string hc hr => exact .string hc (quoted_of_append hr (by omega))
  | doubleQuoted hc hr => exact .doubleQuoted hc (quoted_of_append hr (by omega))
  | bracketed hc hr => exact .bracketed hc (quoted_of_append hr (by omega))
  | number hc hr =>
    obtain rfl := Except.ok.inj hr
    refine .number hc ?_
    rw [← List.cons_append] at hl ⊢
    rw [numberLexeme_of_append (r := r) (by simp) (by rw [List.length_cons]; omega)]
  | lineComment hc hs hr =>
    obtain rfl := Except.ok.inj hr
    obtain ⟨hdash, hrest⟩ := restOfLine_of_append hs rfl hl
    exact .lineComment hc hdash (by simp only [hrest])
  | blockComment hc hs hn hr =>
    obtain rfl := Except.ok.inj hr
    simp only at hl
    have hlow := (countToCommentEnd_bounds _ _ _ _ hn).1
    rw [List.drop_append_of_le_length (by omega)] at hn
    exact .blockComment hc ((head?_iff_of_append hl fun _ => by omega).2 hs)
      (countToCommentEnd_of_append hn (by rw [List.length_drop]; omega)) rfl
  | openComment _ _ _ hr => cases hr
  | numberSign hc hr =>
    obtain rfl := Except.ok.inj hr
    exact .numberSign hc (by rw [hashLexeme_of_append hl])
  | atSign hc hr =>
    obtain rfl := Except.ok.inj hr
    exact .atSign hc (by rw [atLexeme_of_append hl])
  | dollarSign hc hr => exact .dollarSign hc (dollarLexeme_of_append hr hl)
  | questionMark hc hr =>
    obtain rfl := Except.ok.inj hr
    exact .questionMark hc (by rw [countWhile_of_append hl])
  | word hc hs hr =>
    obtain rfl := Except.ok.inj hr
    refine .word hc (fun hmem => hmono (hs hmem)) ?_
    rw [takeWhile_of_append hl, countWhile_of_append hl]
  | sign hblank hdigit hletter hmarks hline hblock hr =>
    obtain rfl := Except.ok.inj hr
    refine .sign hblank hdigit hletter hmarks (fun hc => hmono (hline hc))
      (fun hc => hmono (hblock hc)) ?_
    rw [← List.cons_append] at hl ⊢
    rw [signLexeme?_of_append (r := r) fun m hm => ?_]
    rw [Option.mem_def] at hm
    rw [hm] at hl
    exact Nat.succ_le_succ hl

end RoutineParams
