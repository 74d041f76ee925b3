import RoutineParams.Proofs.Written

/-!
# Written tokens are read back

Each form of a token in front of a text that does not go on with it: the lexer cuts off the token
and nothing else.

    a.endsAt c for the next character c, if any → Cuts r a.text a.pieces         (Written.cuts)
-/

namespace RoutineParams

/-! ## Lemmas: stopping -/

/-- What stops a run does not make the run before it longer. -/
theorem takeWhile_append_of_stop {p : Char → Bool} {b : List Char}
    (hb : ∀ c ∈ b.head?, p c = false) (a : List Char) :
    (a ++ b).takeWhile p = a.takeWhile p := by
  have hnone : b.takeWhile p = [] := by
    cases b with
    | nil => rfl
    | cons c b => exact List.takeWhile_cons_of_neg (by simp [hb c rfl])
  rw [List.takeWhile_append, hnone, List.append_nil]
  split
  · next h => exact ((List.takeWhile_prefix p).eq_of_length h).symm
  · rfl

/-- A run of a class ends where the next character is not of the class. -/
theorem takeWhile_append_stop {p : Char → Bool} {a r : List Char} (ha : ∀ c ∈ a, p c = true)
    (hr : ∀ c ∈ r.head?, p c = false) : (a ++ r).takeWhile p = a := by
  have hrun : (a ++ []).takeWhile p = a ++ [].takeWhile p := List.takeWhile_append_of_pos ha
  rw [takeWhile_append_of_stop hr]
  simpa using hrun

theorem countWhile_append_stop {p : Char → Bool} {a r : List Char} (ha : ∀ c ∈ a, p c = true)
    (hr : ∀ c ∈ r.head?, p c = false) : countWhile p (a ++ r) = a.length := by
  unfold countWhile
  rw [takeWhile_append_stop ha hr]

/-! ## Lemmas: quotes -/

theorem doubled_cons (close c : Char) (text : List Char) :
    doubled close (c :: text) = (if c = close then [c, c] else [c]) ++ doubled close text := by
  simp [doubled]

theorem countToClose_doubled (close : Char) (n : Nat) (text r : List Char)
    (hr : r.head? ≠ some close) :
    countToClose none close n (doubled close text ++ close :: r) =
      some (n + (doubled close text).length + 1) := by
  induction text generalizing n with
  | nil =>
    cases r with
    | nil => simp [doubled, countToClose]
    | cons d r =>
      have hd : d ≠ close := by simpa using hr
      simp [doubled, countToClose, hd]
  | cons c text ih =>
    rw [doubled_cons]
    by_cases hc : c = close
    · subst hc
      simp only [if_true, List.cons_append, List.nil_append, countToClose, ih, List.length_cons]
      congr 1
      omega
    · obtain ⟨d, rest, hrest⟩ : ∃ d rest, doubled close text ++ close :: r = d :: rest := by
        cases doubled close text with
        | nil => exact ⟨_, _, rfl⟩
        | cons d t => exact ⟨_, _, rfl⟩
      have := ih (n + 1)
      rw [hrest] at this
      simp only [if_neg hc, List.cons_append, List.nil_append, hrest, countToClose, this,
        List.length_cons]
      simp only [reduceCtorEq, if_false, Option.some.injEq]
      omega

/-- A quoted text in front of `r` ends with its closing quote. -/
theorem quoted_doubled (form : Form) (fault : LexFault) (close : Char) (before : Nat)
    (text r : List Char) (hr : r.head? ≠ some close) :
    quoted form fault none close before (doubled close text ++ [close] ++ r) =
      .ok ⟨form, before + (doubled close text ++ [close]).length⟩ := by
  unfold quoted
  rw [List.append_assoc, List.singleton_append, countToClose_doubled close before text r hr]
  simp [Nat.add_assoc]

theorem cuts_string (text r : List Char) (hr : r.head? ≠ some '\'') :
    Cuts r ('\'' :: (doubled '\'' text ++ ['\'']))
      [⟨.string, '\'' :: (doubled '\'' text ++ ['\''])⟩] := by
  apply Cuts.single
  have := quoted_doubled .string .unterminatedString '\'' 0 text r hr
  rw [Nat.zero_add] at this
  rw [← this]
  rfl

theorem cuts_national (text r : List Char) (hr : r.head? ≠ some '\'') :
    Cuts r ('N' :: '\'' :: (doubled '\'' text ++ ['\'']))
      [⟨.nationalString, 'N' :: '\'' :: (doubled '\'' text ++ ['\''])⟩] := by
  apply Cuts.single
  have := quoted_doubled .nationalString .unterminatedString '\'' 1 text r hr
  rw [List.length_cons, Nat.add_comm, ← this]
  rfl

theorem cuts_bracketed (text r : List Char) (hr : r.head? ≠ some ']') :
    Cuts r ('[' :: (doubled ']' text ++ [']']))
      [⟨.quotedWord, '[' :: (doubled ']' text ++ [']'])⟩] := by
  apply Cuts.single
  have := quoted_doubled .quotedWord (.unclosedQuote ']') ']' 0 text r hr
  rw [Nat.zero_add] at this
  rw [← this]
  rfl

/-! ## Lemmas: words -/

/-- A text that starts with a letter starts with a word, unless that letter says what the quote after
it is. -/
theorem lexeme_letter {c : Char} {s : List Char} (hc : isLetter c = true)
    (hs : c ∈ ['N', 'n', 'X', 'x'] → s.head? ≠ some '\'') :
    lexeme c s = .ok ⟨.word (c :: s.takeWhile isWordPart), countWhile isWordPart s⟩ :=
  lexeme_eq_iff.2 (.word hc hs rfl)

theorem cuts_word (w : Word) (r : List Char)
    (hr : ∀ c ∈ r.head?, (Written.word w).endsAt c = true) :
    Cuts r w.letters [⟨.word w.letters, w.letters⟩] := by
  have hpart : ∀ c ∈ r.head?, isWordPart c = false := fun c hc => by
    have := hr c hc
    simp only [Written.endsAt, Bool.and_eq_true, Bool.not_eq_true'] at this
    exact this.1
  have hquote : (w.more ++ r).head? ≠ some '\'' := by
    cases hm : w.more with
    | nil =>
      intro h
      have := hr '\'' h
      simp [Written.endsAt, hm] at this
    | cons c more =>
      have hc := w.isWordPart_of_mem c (by rw [hm]; exact List.mem_cons_self)
      simpa using ne_of_class hc (by decide)
  apply Cuts.single
  rw [lexeme_letter w.isLetter_first fun _ => hquote, takeWhile_append_stop w.isWordPart_of_mem hpart,
    countWhile_append_stop w.isWordPart_of_mem hpart]
  rfl

theorem cuts_variable (v : VariableName) (r : List Char)
    (hpart : ∀ c ∈ r.head?, isWordPart c = false) :
    Cuts r v.text [⟨.word v.text, v.text⟩] := by
  have hne : ∀ d, isWordPart d = false → v.first ≠ d := fun d hd =>
    ne_of_class v.isWordPart_first hd
  have hat : lexeme '@' (v.first :: (v.more ++ r)) = .ok (atLexeme (v.first :: (v.more ++ r))) := by
    rfl
  apply Cuts.single
  rw [List.cons_append, hat]
  unfold atLexeme
  simp only
  rw [if_neg (by simp [hne ' ' (by decide), hne '\'' (by decide), hne '"' (by decide),
      hne '\x60' (by decide)]),
    if_neg (by simp [hne '>' (by decide), hne '?' (by decide)]), if_neg v.first_ne_at,
    takeWhile_append_stop v.isWordPart_of_mem hpart,
    countWhile_append_stop v.isWordPart_of_mem hpart]
  simp [VariableName.text, Nat.add_comm]

/-! ## Lemmas: amounts and hexadecimal numbers -/

theorem isAlphanumeric_of_isDigit {c : Char} (h : c.isDigit = true) : isAlphanumeric c = true := by
  have := toNat_lt_of_isDigit h
  simp [isAlphanumeric, isNumeric, h, this]

/-- A dollar sign and digits are a placeholder in front of a text that starts with neither a
letter, a number nor a dollar sign. -/
theorem cuts_dollar (d : Digits) (r : List Char)
    (hr : ∀ c ∈ r.head?, (isAlphanumeric c || c == '_') = false) (hdollar : r.head? ≠ some '$') :
    Cuts r ('$' :: d.figures) [⟨.placeholder d.figures, '$' :: d.figures⟩] := by
  have hname : (d.figures ++ r).takeWhile (fun c => isAlphanumeric c || c == '_') = d.figures :=
    takeWhile_append_stop
      (fun c hc => by simp [isAlphanumeric_of_isDigit (d.isDigit_of_mem c hc)]) hr
  have hsign : lexeme '$' (d.figures ++ r) = dollarLexeme (d.figures ++ r) := rfl
  apply Cuts.single
  rw [hsign]
  unfold dollarLexeme
  simp only [hname, List.drop_left]
  split
  · next body => simp at hdollar
  · rfl

theorem lexeme_number {c : Char} {s : List Char} (hc : c.isDigit = true ∨ c = '.') :
    lexeme c s = .ok (numberLexeme (c :: s)) :=
  lexeme_eq_iff.2 (.number hc rfl)

theorem cuts_hex (digits r : List Char) (hdigits : ∀ c ∈ digits, isHexDigit c = true)
    (hr : ∀ c ∈ r.head?, isHexDigit c = false) :
    Cuts r ('0' :: 'x' :: digits) [⟨.hex, '0' :: 'x' :: digits⟩] := by
  apply Cuts.single
  rw [lexeme_number (Or.inl (by decide))]
  have hcount := countWhile_append_stop hdigits hr
  simp [numberLexeme, hcount, Nat.add_comm]

/-! ## Lemmas: numbers -/

theorem head?_append_digits {d : Digits} {r : List Char} {c : Char}
    (h : (d.figures ++ r).head? = some c) : c.isDigit = true := by
  cases hf : d.figures with
  | nil => exact absurd hf d.figures_ne_nil
  | cons f figures =>
    rw [hf, List.cons_append, List.head?_cons, Option.some.injEq] at h
    exact d.isDigit_of_mem c (by rw [hf, ← h]; exact List.mem_cons_self)

theorem signLength_append (e : Exponent) (r : List Char) :
    signLength (e.sign ++ (e.digits.figures ++ r)) = e.sign.length := by
  unfold signLength
  rcases e.sign_eq with h | h | h
  · have hplus : (e.digits.figures ++ r).head? ≠ some '+' := fun h =>
      absurd (head?_append_digits h) (by decide)
    have hminus : (e.digits.figures ++ r).head? ≠ some '-' := fun h =>
      absurd (head?_append_digits h) (by decide)
    rw [h, List.nil_append, if_neg (fun h => h.elim hplus hminus)]
    rfl
  · simp [h]
  · simp [h]

theorem exponentLength_text (e : Exponent) (r : List Char)
    (hr : ∀ c ∈ r.head?, c.isDigit = false) :
    exponentLength (e.text ++ r) = e.text.length := by
  have hcount : countWhile Char.isDigit (e.digits.figures ++ r) = e.digits.figures.length :=
    countWhile_append_stop e.digits.isDigit_of_mem hr
  have hpos := List.length_pos_iff.2 e.digits.figures_ne_nil
  rw [Exponent.text, List.cons_append, List.append_assoc, exponentLength, if_pos e.mark_eq,
    signLength_append, List.drop_left, hcount]
  obtain ⟨n, hn⟩ : ∃ n, e.digits.figures.length = n + 1 := ⟨_, (Nat.sub_add_cancel hpos).symm⟩
  rw [hn]
  simp only [List.length_cons, List.length_append, hn]
  omega

theorem exponentLength_eq_zero {r : List Char} (hr : ∀ c ∈ r.head?, isWordPart c = false) :
    exponentLength r = 0 := by
  cases r with
  | nil => rfl
  | cons c r =>
    have hne : ∀ d, isWordPart d = true → c ≠ d := fun d hd =>
      (ne_of_class hd (hr c rfl)).symm
    rw [exponentLength, if_neg]
    rintro (h | h)
    · exact hne 'e' (by decide) h
    · exact hne 'E' (by decide) h

/-- What can follow the digits of a number: an exponent, or a text that goes on with neither a word
nor a point. -/
theorem Numeral.head?_exponentText_append (n : Numeral) {r : List Char}
    (hr : ∀ c ∈ r.head?, (!isWordPart c && c != '.') = true) :
    ∀ c ∈ (n.exponentText ++ r).head?, c.isDigit = false ∧ c ≠ '.' ∧ c ≠ 'x' := by
  intro c hc
  unfold exponentText at hc
  split at hc
  · next e he =>
    have hmark : c = e.mark := by
      simpa only [Exponent.text, List.cons_append, List.head?_cons, Option.mem_def,
        Option.some.injEq, eq_comm] using hc
    rcases e.mark_eq with h | h <;> simp [hmark, h]
  · have := hr c hc
    simp only [Bool.and_eq_true, Bool.not_eq_true', bne_iff_ne] at this
    refine ⟨?_, this.2, (ne_of_class (by decide) this.1).symm⟩
    cases hd : c.isDigit with
    | false => rfl
    | true => exact absurd this.1 (by simp [isWordPart_of_isDigit hd])

theorem Numeral.exponentLength_exponentText (n : Numeral) {r : List Char}
    (hr : ∀ c ∈ r.head?, isWordPart c = false) :
    exponentLength (n.exponentText ++ r) = n.exponentText.length := by
  unfold exponentText
  split
  · next e _ =>
    refine exponentLength_text e r fun c hc => ?_
    cases hd : c.isDigit with
    | false => rfl
    | true => exact absurd (hr c hc) (by simp [isWordPart_of_isDigit hd])
  · exact exponentLength_eq_zero hr

/-- A number without a point, in front of what can follow its digits. -/
theorem Numeral.numberLexeme_whole (n : Numeral) (r : List Char) (hf : n.fraction = none)
    (htail : ∀ c ∈ (n.exponentText ++ r).head?, c.isDigit = false ∧ c ≠ '.' ∧ c ≠ 'x')
    (hexponent : exponentLength (n.exponentText ++ r) = n.exponentText.length)
    (hlong : r.head? ≠ some 'L') :
    numberLexeme (n.text ++ r) = ⟨.number n.text, n.text.length - 1⟩ := by
  have hdigit : ∀ c ∈ (n.exponentText ++ r).head?, c.isDigit = false := fun c hc => (htail c hc).1
  have hne : n.whole ≠ [] := by
    rcases n.some_digit with h | ⟨f, hmem, -⟩
    · exact h
    · rw [hf] at hmem; cases hmem
  have htext : n.text = n.whole ++ n.exponentText := by
    simp [Numeral.text, Numeral.fractionText, hf]
  have hs : n.text ++ r = n.whole ++ (n.exponentText ++ r) := by
    rw [htext, List.append_assoc]
  have hwhole := takeWhile_append_stop n.isDigit_of_mem_whole hdigit
  have hnone : countWhile Char.isDigit (n.exponentText ++ r) = 0 :=
    countWhile_append_stop (a := []) (by simp) hdigit
  have hx : ¬(n.whole = ['0'] ∧ (n.exponentText ++ r).head? = some 'x') := fun h =>
    (htail 'x' h.2).2.2 rfl
  have hdot : (n.exponentText ++ r).head? ≠ some '.' := fun h => (htail '.' h).2.1 rfl
  have hlen : n.whole.length + n.exponentText.length = n.text.length := by
    rw [htext, List.length_append]
  unfold numberLexeme
  rw [hs]
  simp only [hwhole, List.drop_left, if_neg hx, if_neg hdot, List.drop_zero, hnone,
    Nat.add_zero, List.length_eq_zero_iff, if_neg hne, hexponent, hlen]
  rw [← hs, List.take_left, List.drop_left, if_neg hlong, Nat.add_zero]

/-- A number with a point, in front of what can follow its digits. -/
theorem Numeral.numberLexeme_point (n : Numeral) (r : List Char) {f : List Char}
    (hf : n.fraction = some f)
    (hdigit : ∀ c ∈ (n.exponentText ++ r).head?, c.isDigit = false)
    (hexponent : exponentLength (n.exponentText ++ r) = n.exponentText.length)
    (hlong : r.head? ≠ some 'L') :
    numberLexeme (n.text ++ r) = ⟨.number n.text, n.text.length - 1⟩ := by
  have htext : n.text = n.whole ++ '.' :: (f ++ n.exponentText) := by
    simp [Numeral.text, Numeral.fractionText, hf]
  have hs : n.text ++ r = n.whole ++ '.' :: (f ++ (n.exponentText ++ r)) := by
    rw [htext]; simp only [List.append_assoc, List.cons_append]
  have hwhole :
      (n.whole ++ '.' :: (f ++ (n.exponentText ++ r))).takeWhile Char.isDigit = n.whole :=
    takeWhile_append_stop n.isDigit_of_mem_whole (by simp)
  have hfraction := countWhile_append_stop (n.isDigit_of_mem_fraction f hf) hdigit
  have hdigits : ¬(n.whole.length + f.length = 0) := by
    rcases n.some_digit with h | ⟨g, hmem, h⟩
    · have := List.length_pos_iff.2 h; omega
    · rw [hf] at hmem
      obtain rfl := Option.some.inj hmem
      have := List.length_pos_iff.2 h; omega
  have hdrop : (n.whole ++ '.' :: (f ++ (n.exponentText ++ r))).drop
      (n.whole.length + f.length + 1) = n.exponentText ++ r := by
    rw [Nat.add_assoc, List.drop_length_add_append, List.drop_succ_cons, List.drop_left]
  have hlen : n.whole.length + f.length + 1 + n.exponentText.length = n.text.length := by
    rw [htext]; simp only [List.length_append, List.length_cons]; omega
  unfold numberLexeme
  rw [hs]
  simp only [hwhole, List.drop_left, List.head?_cons, Option.some.injEq, if_true,
    List.drop_succ_cons, List.drop_zero, hfraction, if_neg hdigits, hdrop, hexponent, hlen]
  rw [if_neg (by simp), ← hs, List.take_left, List.drop_left, if_neg hlong, Nat.add_zero]

/-- A number in front of a text that goes on with neither a word nor a point. -/
theorem Numeral.numberLexeme_text (n : Numeral) (r : List Char)
    (hr : ∀ c ∈ r.head?, (!isWordPart c && c != '.') = true) :
    numberLexeme (n.text ++ r) = ⟨.number n.text, n.text.length - 1⟩ := by
  have hpart : ∀ c ∈ r.head?, isWordPart c = false := fun c hc => by
    have := hr c hc
    simp_all
  have htail := n.head?_exponentText_append hr
  have hexponent := n.exponentLength_exponentText hpart
  have hlong : r.head? ≠ some 'L' := fun h => absurd (hpart 'L' h) (by decide)
  cases hf : n.fraction with
  | none => exact n.numberLexeme_whole r hf htail hexponent hlong
  | some f => exact n.numberLexeme_point r hf (fun c hc => (htail c hc).1) hexponent hlong

theorem Numeral.head?_text (n : Numeral) :
    ∃ c t, n.text = c :: t ∧ (c.isDigit = true ∨ c = '.') := by
  unfold Numeral.text
  cases hw : n.whole with
  | cons c t =>
    exact ⟨c, _, rfl, Or.inl (n.isDigit_of_mem_whole c (by rw [hw]; exact List.mem_cons_self))⟩
  | nil =>
    rcases n.some_digit with h | ⟨f, hmem, h⟩
    · exact absurd hw h
    · have hf : n.fraction = some f := hmem
      exact ⟨'.', f ++ n.exponentText, by simp [Numeral.fractionText, hf], Or.inr rfl⟩

theorem cuts_numeral (n : Numeral) (r : List Char)
    (hr : ∀ c ∈ r.head?, (!isWordPart c && c != '.') = true) :
    Cuts r n.text [⟨.number n.text, n.text⟩] := by
  obtain ⟨c, t, htext, hc⟩ := n.head?_text
  have hnumber := n.numberLexeme_text r hr
  rw [htext, List.cons_append] at hnumber
  rw [htext]
  apply Cuts.single
  rw [lexeme_number hc, hnumber]
  rfl

/-! ## Lemmas: signs -/

theorem lexeme_equals {r : List Char} (hr : ∀ c ∈ r.head?, (c != '=' && c != '>') = true) :
    lexeme '=' r = .ok ⟨.sign .equals, 0⟩ := by
  have hsign : lexeme '=' r = .ok ((signLexeme? ('=' :: r)).getD ⟨.sign .unknown, 0⟩) := rfl
  rw [hsign]
  cases r with
  | nil => rfl
  | cons c r =>
    have hc := hr c rfl
    simp only [Bool.and_eq_true, bne_iff_ne] at hc
    have heq : ('=' == c) = false := by simpa using hc.1.symm
    have hgt : ('>' == c) = false := by simpa using hc.2.symm
    simp [signLexeme?, signs, List.find?, List.isPrefixOf, heq, hgt]

theorem lexeme_dot {r : List Char} (hr : ∀ c ∈ r.head?, (!c.isDigit) = true) :
    lexeme '.' r = .ok ⟨.sign .dot, 0⟩ := by
  have hnone : r.takeWhile Char.isDigit = [] := by
    cases r with
    | nil => rfl
    | cons c r =>
      have hc : c.isDigit = false := by simpa using hr c rfl
      rw [List.takeWhile_cons_of_neg (by simp [hc])]
  rw [lexeme_number (Or.inr rfl)]
  simp [numberLexeme, countWhile, hnone]

namespace Written

/-! ## Top theorems (proved from the lemmas above) -/

/-- **Every written token is read back** in front of a text that does not go on with it. -/
theorem cuts (a : Written) (r : List Char) (hr : ∀ c ∈ r.head?, a.endsAt c = true) :
    Cuts r a.text a.pieces := by
  have hnot : ∀ d, a.endsAt d = false → r.head? ≠ some d := fun d hd h => by
    rw [hr d h] at hd
    cases hd
  match a, hr, hnot with
  | word w, hr, _ => exact cuts_word w r hr
  | localVariable v, hr, _ => exact cuts_variable v r (by simpa [endsAt] using hr)
  | bracketed text, _, hnot => exact cuts_bracketed text r (hnot ']' rfl)
  | literal (.numeral n), hr, _ => exact cuts_numeral n r hr
  | literal (.string text), _, hnot => exact cuts_string text r (hnot '\'' rfl)
  | literal (.national text), _, hnot => exact cuts_national text r (hnot '\'' rfl)
  | literal (.hex digits h), hr, _ => exact cuts_hex digits r h (by simpa [endsAt] using hr)
  | literal (.null k), hr, _ =>
    refine cuts_word k.word r fun c hc => ?_
    have := hr c hc
    simp only [endsAt, Bool.and_eq_true] at this ⊢
    simp [this]
  | literal (.money whole), hr, hnot =>
    refine cuts_dollar whole r (fun c hc => ?_) (hnot '$' rfl)
    have := hr c hc
    simp only [endsAt, isWordPart, Bool.and_eq_true, Bool.not_eq_true',
      Bool.or_eq_false_iff] at this
    simp [isAlphanumeric, this]
  | literal (.cents whole fraction), hr, _ =>
    -- the fraction is a number of its own, which starts with the point
    let n : Numeral := ⟨[], some fraction.figures, none, by simp,
      by simpa using fraction.isDigit_of_mem, Or.inr ⟨_, rfl, fraction.figures_ne_nil⟩⟩
    have hn : n.text = '.' :: fraction.figures := by
      simp [n, Numeral.text, Numeral.fractionText, Numeral.exponentText]
    have hfraction := cuts_numeral n r hr
    rw [hn] at hfraction
    exact (cuts_dollar whole ('.' :: fraction.figures ++ r) (by simp; decide) (by simp)).append
      hfraction
  | equals, hr, _ => exact Cuts.single (lexeme_equals hr)
  | leftParen, _, _ => exact Cuts.single rfl
  | rightParen, _, _ => exact Cuts.single rfl
  | comma, _, _ => exact Cuts.single rfl
  | dot, hr, _ => exact Cuts.single (lexeme_dot hr)

end Written

end RoutineParams
