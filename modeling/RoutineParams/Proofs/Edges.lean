import RoutineParams.Proofs.Continuation
import RoutineParams.Proofs.Crossings
import RoutineParams.Text.WordChar

/-!
# The edges of tokens

What the first and the last character of a token tell of its kind. Blanks are tokens of their own, a
comment starts with a sign of its own and ends in no word, and a word ends where no character of a
word follows.

    (lex source).diagnostic = none → each of its tokens fits before those that follow   (fits_tokens)
-/

namespace RoutineParams

/-! ## Definitions -/

/-- Whether a token is a comment. -/
def Token.isComment (t : Token) : Bool := t.kind == .lineComment || t.kind == .blockComment

/-- Whether a token is a blank or a comment. -/
def Token.isGap (t : Token) : Bool := t.kind == .blank || t.isComment

/-- The characters of tokens. -/
def charsOf (tokens : List Token) : List Char := tokens.flatMap (·.text.toList)

/-- What the kind of a lexeme tells of its first character, of the others and of what follows. -/
def Kind.Fits (c : Char) (t s : List Char) : Kind → Prop
  | .blank => isBlank c = true ∧ isAllBlank t = true
  | .lineComment => c = '-' ∧ (s = [] ∨ t.getLast? = some '\n')
  | .blockComment => c = '/' ∧ t.getLast? = some '/'
  | .quotedIdentifier => c = '"' ∨ c = '[' ∧ t.getLast? = some ']'
  | _ => isBlank c = false

/-- What a token tells of its characters and of the text `s` that follows. -/
structure Token.Fits (t : Token) (s : List Char) : Prop where
  ne_nil : t.text.toList ≠ []
  blank : t.kind = .blank → isAllBlank t.text.toList = true
  starts_comment : t.isComment = true → ∀ c ∈ t.text.toList.head?, c = '-' ∨ c = '/'
  ends_comment : t.isComment = true → s ≠ [] → ∀ c ∈ t.text.toList.getLast?, isWordChar c = false
  not_blank : t.isGap = false → ∀ c ∈ t.text.toList.head?, isBlank c = false
  quoted : t.kind = .quotedIdentifier →
    t.text.toList.head? = some '"' ∨ ∃ u, t.text.toList = '[' :: (u ++ [']'])
  bracket : t.text.toList.head? = some '[' → t.kind = .quotedIdentifier
  word : (∀ c ∈ t.text.toList.head?, isLetter c = true ∧ c ∉ ['N', 'n', 'X', 'x']) →
    ∀ d ∈ s.head?, isWordPart d = false

/-- Whether every token fits before those that follow. -/
def Fitting : List Token → Prop
  | [] => True
  | t :: tokens => t.Fits (charsOf tokens) ∧ Fitting tokens

/-! ## Lemmas: lexemes -/

/-- Whether a kind is one that says nothing more of its first character than that it is no blank. -/
def Kind.isPlain : Kind → Bool
  | blank | lineComment | blockComment | quotedIdentifier => false
  | _ => true

theorem Kind.fits_of_isPlain {kind : Kind} (h : kind.isPlain = true) {c : Char} {t s : List Char}
    (hc : isBlank c = false) : kind.Fits c t s := by
  cases kind <;> first | exact hc | cases h

theorem isPlain_word (letters : List Char) : (Form.word letters).kind.isPlain = true := by
  simp only [Form.kind, Kind.ofLetters, Kind.ofWord, apply_ite Kind.isPlain]
  simp only [Kind.isPlain, ite_self]

theorem isPlain_number (figures : List Char) : (Form.number figures).kind.isPlain = true := by
  simp only [Form.kind, Kind.ofFigures, apply_ite Kind.isPlain]
  simp only [Kind.isPlain, ite_self]

theorem isPlain_placeholder (name : List Char) : (Form.placeholder name).kind.isPlain = true := by
  simp only [Form.kind, apply_ite Kind.isPlain]
  simp only [Kind.isPlain, ite_self]

theorem isPlain_numberLexeme (s : List Char) : (numberLexeme s).form.kind.isPlain = true := by
  rw [numberLexeme_eq]
  split
  · rfl
  · split
    · rfl
    · exact isPlain_number _

theorem isPlain_hashLexeme (s : List Char) : (hashLexeme s).form.kind.isPlain = true := by
  cases s with
  | nil => rfl
  | cons d s =>
    unfold hashLexeme
    simp only
    repeat' split
    all_goals first | exact isPlain_word _ | rfl

theorem isPlain_atLexeme (s : List Char) : (atLexeme s).form.kind.isPlain = true := by
  cases s with
  | nil => rfl
  | cons d s =>
    unfold atLexeme
    simp only
    repeat' split
    all_goals first | exact isPlain_word _ | rfl

theorem isPlain_dollarLexeme {s : List Char} {l : Lexeme} (h : dollarLexeme s = .ok l) :
    l.form.kind.isPlain = true := by
  unfold dollarLexeme at h
  simp only at h
  split at h
  · split at h
    · obtain rfl := Except.ok.inj h
      rfl
    · cases h
  · obtain rfl := Except.ok.inj h
    exact isPlain_placeholder _

theorem isPlain_of_mem_signs : ∀ sign ∈ signs, sign.2.isPlain = true := by decide

theorem isPlain_signLexeme (s : List Char) :
    ((signLexeme? s).getD ⟨.sign .unknown, 0⟩).form.kind.isPlain = true := by
  unfold signLexeme?
  cases hfind : signs.find? fun sign => sign.1.isPrefixOf s with
  | none => rfl
  | some sign => exact isPlain_of_mem_signs sign (List.mem_of_find?_eq_some hfind)

theorem form_quoted {form : Form} {fault : LexFault} {escape : Option Char} {close : Char}
    {before : Nat} {s : List Char} {l : Lexeme}
    (h : quoted form fault escape close before s = .ok l) : l.form = form := by
  unfold quoted at h
  split at h
  · obtain rfl := Except.ok.inj h
    rfl
  · cases h

theorem form_of_bracket {s : List Char} {l : Lexeme} (h : lexeme '[' s = .ok l) :
    l.form = .quotedWord :=
  form_quoted ((lexeme_eq_iff.2 (.bracketed rfl rfl)).symm.trans h)

/-- A quoted text ends with the mark that closes it. -/
theorem getLast?_of_quoted {form : Form} {fault : LexFault} {escape : Option Char} {close : Char}
    {t s : List Char} {l : Lexeme} (h : quoted form fault escape close 0 (t ++ s) = .ok l)
    (hl : l.extra = t.length) : t.getLast? = some close := by
  unfold quoted at h
  split at h
  · next m hm =>
    obtain rfl := Except.ok.inj h
    obtain ⟨a, b, hs, rfl⟩ := exists_of_countToClose hm
    simp only [Nat.zero_add] at hl
    have ht : t ≠ [] := List.ne_nil_of_length_pos (by omega)
    exact getLast?_of_close (t := []) (by rw [List.nil_append, hs]) (by simp [← hl]) ht
  · cases h

/-- A comment to the end of its line ends with it, unless nothing follows. -/
theorem getLast?_of_line {t s : List Char}
    (h : t.length = if countWhile (· != '\n') (t ++ s) < (t ++ s).length then
      countWhile (· != '\n') (t ++ s) + 1 else countWhile (· != '\n') (t ++ s)) :
    s = [] ∨ t.getLast? = some '\n' := by
  split at h
  · next hlt =>
    -- the characters before the newline, and the newline
    have hsplit := List.takeWhile_append_dropWhile (p := (· != '\n')) (l := t ++ s)
    obtain ⟨d, r, hr⟩ : ∃ d r, (t ++ s).dropWhile (· != '\n') = d :: r := by
      refine List.exists_cons_of_ne_nil fun hnil => ?_
      rw [hnil, List.append_nil] at hsplit
      rw [countWhile, hsplit] at hlt
      exact Nat.lt_irrefl _ hlt
    have hd : d = '\n' := by
      have hnot := List.head?_dropWhile_not (· != '\n') (t ++ s)
      rw [hr] at hnot
      simpa using hnot
    subst hd
    rw [hr, List.append_cons] at hsplit
    have ht := List.append_inj_left hsplit (by
      rw [List.length_append, List.length_singleton, h, countWhile])
    exact .inr (by rw [← ht, List.getLast?_concat])
  · next hlt =>
    have hle := countWhile_le (· != '\n') (t ++ s)
    rw [List.length_append] at hlt hle
    exact .inl (List.eq_nil_of_length_eq_zero (by omega))

/-- **The kind of a lexeme fits its first character,** the others and what follows. -/
theorem lexeme_fits {c : Char} {t s : List Char} {form : Form}
    (h : lexeme c (t ++ s) = .ok ⟨form, t.length⟩) : form.kind.Fits c t s := by
  -- for most kinds it is enough that the lexeme does not start with a blank
  have hplain : form.kind.isPlain = true → isBlank c = false → form.kind.Fits c t s :=
    fun hkind hblank => Kind.fits_of_isPlain hkind hblank
  cases lexeme_eq_iff.1 h with
  | lineBreak hc hr =>
    obtain ⟨rfl, hlength⟩ := Lexeme.mk.inj (Except.ok.inj hr)
    subst hc
    refine ⟨by decide, ?_⟩
    split at hlength
    · next hhead =>
      obtain ⟨d, rfl⟩ := List.length_eq_one_iff.1 hlength.symm
      obtain rfl := Option.some.inj hhead
      decide
    · rw [List.eq_nil_of_length_eq_zero hlength.symm]
      rfl
  | blank hc _ hr =>
    obtain ⟨rfl, hlength⟩ := Lexeme.mk.inj (Except.ok.inj hr)
    rw [List.eq_nil_of_length_eq_zero hlength.symm]
    exact ⟨hc, rfl⟩
  | national hc _ hr | hexadecimal hc _ hr =>
    obtain rfl : form = _ := form_quoted hr
    exact hplain rfl (by rcases hc with rfl | rfl <;> rfl)
  | string hc hr =>
    obtain rfl : form = _ := form_quoted hr
    exact hplain rfl (by rw [hc]; rfl)
  | doubleQuoted hc hr =>
    obtain rfl : form = _ := form_quoted hr
    exact .inl hc
  | bracketed hc hr =>
    obtain rfl : form = _ := form_quoted hr
    exact .inr ⟨hc, getLast?_of_quoted hr rfl⟩
  | number hc hr =>
    have hkind := isPlain_numberLexeme (c :: (t ++ s))
    rw [Except.ok.inj hr] at hkind
    refine hplain hkind ?_
    rcases hc with hc | rfl
    · exact isBlank_of_isDigit hc
    · rfl
  | lineComment hc _ hr =>
    obtain ⟨rfl, hlength⟩ := Lexeme.mk.inj (Except.ok.inj hr)
    exact ⟨hc, getLast?_of_line hlength.symm⟩
  | blockComment hc hs hn hr =>
    obtain ⟨rfl, hlength⟩ := Lexeme.mk.inj (Except.ok.inj hr)
    obtain ⟨a, b, hsplit, rfl⟩ := exists_of_countToCommentEnd hn
    obtain ⟨u, hu⟩ := List.head?_eq_some_iff.1 hs
    rw [hu, List.drop_succ_cons, List.drop_zero] at hsplit
    have ht : t ≠ [] := List.ne_nil_of_length_pos (by omega)
    refine ⟨hc, getLast?_of_close (t := []) (a := '*' :: a) (b := b) (r := s) ?_ ?_ ht⟩
    · rw [List.nil_append, hu, hsplit, List.cons_append]
    · simp only [List.nil_append, List.length_cons]
      omega
  | openComment _ _ _ hr => cases hr
  | numberSign hc hr =>
    have hkind := isPlain_hashLexeme (t ++ s)
    rw [Except.ok.inj hr] at hkind
    exact hplain hkind (by rw [hc]; rfl)
  | atSign hc hr =>
    have hkind := isPlain_atLexeme (t ++ s)
    rw [Except.ok.inj hr] at hkind
    exact hplain hkind (by rw [hc]; rfl)
  | dollarSign hc hr => exact hplain (isPlain_dollarLexeme hr) (by rw [hc]; rfl)
  | questionMark hc hr =>
    obtain ⟨rfl, -⟩ := Lexeme.mk.inj (Except.ok.inj hr)
    exact hplain rfl (by rw [hc]; rfl)
  | word hc _ hr =>
    obtain ⟨rfl, -⟩ := Lexeme.mk.inj (Except.ok.inj hr)
    exact hplain (isPlain_word _) (isBlank_of_isLetter hc)
  | sign hblank _ _ _ _ _ hr =>
    have hkind := isPlain_signLexeme (c :: (t ++ s))
    rw [Except.ok.inj hr] at hkind
    exact hplain hkind hblank

/-! ## Lemmas: tokens -/

theorem charsOf_cons (t : Token) (tokens : List Token) :
    charsOf (t :: tokens) = t.text.toList ++ charsOf tokens := by
  simp [charsOf]

theorem charsOf_append (a b : List Token) : charsOf (a ++ b) = charsOf a ++ charsOf b := by
  simp [charsOf]

theorem charsOf_joinAmounts (ps : List Piece) : charsOf (joinAmounts ps) = textOf ps := by
  fun_induction joinAmounts ps with
  | case1 => rfl
  | case2 a => simp [charsOf, textOf, Piece.token]
  | case3 a b ps hfraction ih =>
    rw [charsOf_cons, ih, textOf_cons, textOf_cons, String.toList_ofList, List.append_assoc]
  | case4 a b ps hfraction ih =>
    rw [charsOf_cons, ih, textOf_cons a, Piece.token, String.toList_ofList]

/-- What starts with a letter is a word, but for the texts that the letter before the quote marks. -/
theorem form_of_isLetter {c : Char} {t s : List Char} {form : Form}
    (h : lexeme c (t ++ s) = .ok ⟨form, t.length⟩)
    (hc : isLetter c = true ∧ c ∉ ['N', 'n', 'X', 'x']) :
    (∃ letters, form = .word letters) ∧ ∀ d ∈ s.head?, isWordPart d = false := by
  have hletter := lexeme_letter (s := t ++ s) hc.1 fun hmem => absurd hmem hc.2
  obtain ⟨rfl, hlength⟩ := Lexeme.mk.inj (Except.ok.inj (h.symm.trans hletter))
  have hstop := head?_drop_countWhile isWordPart (t ++ s)
  rw [← hlength, List.drop_left] at hstop
  exact ⟨⟨_, rfl⟩, hstop⟩

theorem isWordChar_newline : isWordChar '\n' = false := by decide

theorem isWordChar_slash : isWordChar '/' = false := by decide

/-- The token of a lexeme fits before the text that follows. -/
theorem fits_of_lexeme {c : Char} {t s : List Char} {form : Form}
    (h : lexeme c (t ++ s) = .ok ⟨form, t.length⟩) :
    Token.Fits ⟨form.kind, String.ofList (c :: t)⟩ s := by
  have hfits := lexeme_fits h
  have hword := fun hc => (form_of_isLetter h hc).2
  have hbracket : c = '[' → form.kind = .quotedIdentifier := by
    rintro rfl
    rw [show form = .quotedWord from form_of_bracket h]
    rfl
  clear h
  generalize form.kind = kind at hfits hbracket
  have hcomment : Token.isComment ⟨kind, String.ofList (c :: t)⟩ = true →
      kind = .lineComment ∨ kind = .blockComment := by simp [Token.isComment]
  constructor
  · simp
  · intro hkind
    obtain rfl : kind = .blank := hkind
    rw [String.toList_ofList, isAllBlank, List.all_cons, hfits.1]
    exact hfits.2
  · intro hkind d hd
    rw [String.toList_ofList] at hd
    obtain rfl := Option.some.inj hd
    rcases hcomment hkind with rfl | rfl
    · exact .inl hfits.1
    · exact .inr hfits.1
  · intro hkind hs d hd
    rw [String.toList_ofList, Option.mem_def, List.getLast?_cons] at hd
    obtain rfl := Option.some.inj hd
    rcases hcomment hkind with rfl | rfl
    · rw [hfits.2.resolve_left hs]
      exact isWordChar_newline
    · rw [hfits.2]
      exact isWordChar_slash
  · intro hgap d hd
    rw [String.toList_ofList] at hd
    obtain rfl := Option.some.inj hd
    have hkinds : kind ≠ .blank ∧ kind ≠ .lineComment ∧ kind ≠ .blockComment := by
      simpa [Token.isGap, Token.isComment] using hgap
    cases kind with
    | blank => exact absurd rfl hkinds.1
    | lineComment => exact absurd rfl hkinds.2.1
    | blockComment => exact absurd rfl hkinds.2.2
    | quotedIdentifier => rcases hfits with rfl | ⟨rfl, -⟩ <;> decide
    | _ => exact hfits
  · intro hkind
    obtain rfl : kind = .quotedIdentifier := hkind
    rw [String.toList_ofList]
    rcases hfits with rfl | ⟨rfl, hlast⟩
    · exact .inl rfl
    · obtain ⟨u, rfl⟩ := List.getLast?_eq_some_iff.1 hlast
      exact .inr ⟨u, rfl⟩
  · intro hhead
    rw [String.toList_ofList] at hhead
    exact hbracket (Option.some.inj hhead)
  · intro hletter
    rw [String.toList_ofList] at hletter
    exact hword (hletter c rfl)

/-- The token of an amount and its fraction fits. -/
theorem fits_of_amount {c : Char} {t s u : List Char} {form : Form}
    (h : lexeme c (t ++ u) = .ok ⟨form, t.length⟩) (hmoney : form.isMoney = true)
    (more : List Char) : Token.Fits ⟨.money, String.ofList (c :: t ++ more)⟩ s := by
  obtain ⟨name, rfl⟩ : ∃ name, form = .placeholder name := by
    cases form with
    | placeholder name => exact ⟨name, rfl⟩
    | _ => cases hmoney
  have hkind : (Form.placeholder name).kind = .money := if_pos hmoney
  have hblank : isBlank c = false := by
    have hfits := lexeme_fits h
    rwa [hkind] at hfits
  have hhead : ∀ d ∈ (String.ofList (c :: t ++ more)).toList.head?, d = c := by simp
  refine ⟨by simp, nofun, nofun, nofun, ?_, nofun, fun hbracket => ?_, fun hletter => ?_⟩
  · intro _ d hd
    rw [hhead d hd]
    exact hblank
  · -- nor with a bracket
    obtain rfl := hhead '[' hbracket
    cases form_of_bracket h
  · -- an amount starts with no letter
    obtain ⟨⟨letters, hform⟩, -⟩ := form_of_isLetter h (hletter c (by simp))
    cases hform

theorem fitting_joinAmounts {s : List Char} {ps : List Piece} (h : Cuts [] s ps) :
    Fitting (joinAmounts ps) := by
  fun_induction joinAmounts ps generalizing s with
  | case1 => trivial
  | case2 a =>
    cases h with
    | cons first hrest =>
      obtain rfl := hrest.textOf_eq
      exact ⟨fits_of_lexeme first, trivial⟩
  | case3 a b ps hfraction ih =>
    cases h with
    | cons first hrest =>
      cases hrest with
      | cons second hrest =>
        exact ⟨fits_of_amount first (Bool.and_eq_true_iff.1 hfraction).1 _, ih hrest⟩
  | case4 a b ps hfraction ih =>
    cases h with
    | cons first hrest =>
      refine ⟨?_, ih hrest⟩
      rw [charsOf_joinAmounts, hrest.textOf_eq]
      rw [List.append_nil] at first
      exact fits_of_lexeme first

/-! ## Top theorem (proved from the lemmas above) -/

/-- **The tokens of a text** that lexes fit, each before those that follow. -/
theorem fitting_tokens {source : String} (h : (lex source).diagnostic = none) :
    Fitting (lex source).tokens ∧ charsOf (lex source).tokens = source.toList := by
  obtain ⟨ps, hps, htokens⟩ := exists_cuts_of_lexed h
  rw [htokens, charsOf_joinAmounts, hps.textOf_eq]
  exact ⟨fitting_joinAmounts hps, rfl⟩

end RoutineParams
