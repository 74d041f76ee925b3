import RoutineParams.Proofs.Continuation

/-!
# Where a fault leaves tokens

A lexeme that is never closed is a fault. One that a quote opens is reported at that quote, and what
stands before it lexes: a header there keeps its parameters. A comment and a text between dollars
are reported at the end of the text, so that all of it is tried again and fails again: no token is
left.

    parameters behind a fault = if the fault is at a quote then those before it else none
                                                             (parameters_extract_of_diagnostic)
-/

namespace RoutineParams

/-- Whether a fault is reported at the quote that is never closed, and not at the end of the
text. -/
def LexFault.isAtQuote : LexFault → Bool
  | unterminatedString | unclosedQuote _ => true
  | unclosedComment | unterminatedDollar | unterminatedDollarTag => false

/-- The letters that stand before the quote of a string, and belong to it. -/
def quoteLetters : List Char := ['N', 'n', 'X', 'x']

/-- The piece that a lexeme leaves which starts with `c` and has no end: the letter before its
quote. -/
def leftPieces (c : Char) : List Piece := if c ∈ quoteLetters then [⟨.word [c], [c]⟩] else []

/-! ## Lemmas: the place of a fault -/

theorem isLetter_of_mem_quoteLetters : ∀ c ∈ quoteLetters, isLetter c = true :=
  List.all_eq_true.1 (by decide)

/-- Where a lexeme of a quoted text fails, the fault is at the quote. -/
theorem offset_of_quoted_error {form : Form} {fault : LexFault} {escape : Option Char}
    {close : Char} {before : Nat} {s : List Char} {f : LexFailure}
    (h : quoted form fault escape close before s = .error f) : f = ⟨fault, before⟩ := by
  unfold quoted at h
  split at h
  · cases h
  · exact (Except.error.inj h).symm

theorem offset_of_dollarLexeme_error {s : List Char} {f : LexFailure}
    (h : dollarLexeme s = .error f) : f.fault.isAtQuote = false ∧ f.offset = s.length + 1 := by
  unfold dollarLexeme at h
  simp only at h
  split at h
  · split at h
    · cases h
    · obtain rfl := Except.error.inj h
      refine ⟨?_, rfl⟩
      split <;> rfl
  · cases h

/-- A fault is reported at the quote that opens its lexeme, which is the second character where the
first one is a letter, or at the end of the text. -/
theorem offset_of_lexeme_error {c : Char} {s : List Char} {f : LexFailure}
    (h : lexeme c s = .error f) :
    f.fault.isAtQuote = true ∧
        (f.offset = 0 ∧ c ∉ quoteLetters ∨ f.offset = 1 ∧ c ∈ quoteLetters) ∨
      f.fault.isAtQuote = false ∧ f.offset = s.length + 1 := by
  cases lexeme_eq_iff.1 h with
  | national hc _ hr | hexadecimal hc _ hr =>
    obtain rfl := offset_of_quoted_error hr
    exact Or.inl ⟨rfl, Or.inr ⟨rfl, by rcases hc with rfl | rfl <;> decide⟩⟩
  | string hc hr | doubleQuoted hc hr | bracketed hc hr =>
    obtain rfl := offset_of_quoted_error hr
    exact Or.inl ⟨rfl, Or.inl ⟨rfl, by rw [hc]; decide⟩⟩
  | openComment _ _ _ hr =>
    obtain rfl := Except.error.inj hr
    exact Or.inr ⟨rfl, rfl⟩
  | dollarSign _ hr => exact Or.inr (offset_of_dollarLexeme_error hr)
  | lineBreak _ hr | blank _ _ hr | number _ hr | lineComment _ _ hr | blockComment _ _ _ hr
  | numberSign _ hr | atSign _ hr | questionMark _ hr | word _ _ hr | sign _ _ _ _ _ _ hr =>
    cases hr

/-! ## Lemmas: the tokens that are left -/

/-- The text before the quote at which a lexeme fails is cut as it was with the quote behind it. A
letter before the quote becomes a word of its own. -/
theorem cuts_before_quote {u t : List Char} {c : Char} {ps : List Piece} {f : LexFailure}
    (hcuts : Cuts (c :: t) u ps) (hf : lexeme c t = .error f) (hquote : f.fault.isAtQuote = true) :
    Cuts [] (u ++ (c :: t).take f.offset) (ps ++ leftPieces c) := by
  rcases offset_of_lexeme_error hf with ⟨-, ⟨hzero, hc⟩ | ⟨hone, hc⟩⟩ | ⟨hend, -⟩
  · rw [hzero, List.take_zero, List.append_nil, leftPieces, if_neg hc, List.append_nil]
    exact Cuts.of_append (q := c :: t) hcuts
  · have hletter : Cuts [] [c] [⟨.word [c], [c]⟩] :=
      cuts_word ⟨c, [], isLetter_of_mem_quoteLetters c hc, by simp⟩ [] (by simp)
    rw [hone, List.take_succ_cons, List.take_zero, leftPieces, if_pos hc]
    exact (Cuts.of_append (r := [c]) (q := t) hcuts).append hletter
  · rw [hend] at hquote
    cases hquote

/-- What stands before a quote that is never closed is cut into pieces. -/
theorem exists_cuts_before_quote {a r : List Char} {ps : List Piece} {d : Diagnostic}
    (ha : Cuts r a ps) (h : place (a ++ r) = .error d) (hd : d.fault.isAtQuote = true) :
    ∃ b c qs, r = b ++ c ∧ d.position = .after (a ++ b) ∧ Cuts [] (a ++ b) (ps ++ qs) := by
  have hplace := placeFrom_of_cuts ha [] []
  rw [List.nil_append] at hplace
  obtain ⟨u, c, t, qs, f, rfl, hcuts, hf, rfl⟩ :=
    exists_lexeme_of_placeFrom_error (hplace.symm.trans h)
  have hbefore := cuts_before_quote (ha.append hcuts) hf hd
  rw [List.append_assoc, List.append_assoc] at hbefore
  refine ⟨u ++ (c :: t).take f.offset, (c :: t).drop f.offset, _, ?_, rfl, hbefore⟩
  rw [List.append_assoc, List.take_append_drop]

theorem place_of_diagnostic {shown : Form → String} {source : String} {d : Diagnostic}
    (h : (lexShowing shown source).diagnostic = some d) : place source.toList = .error d := by
  cases hplace : place source.toList with
  | ok placed => simp [lexShowing, hplace] at h
  | error e => rw [lexShowing_of_error shown hplace] at h; rw [← Option.some.inj h]

/-- Where a fault is at a quote, there is a token if there is a piece before it. -/
theorem tokens_ne_nil_of_quote (shown : Form → String) {source : String} {a r : List Char}
    {ps : List Piece} {d : Diagnostic} (ha : Cuts r a ps) (hps : ps ≠ [])
    (hs : source.toList = a ++ r) (h : (lexShowing shown source).diagnostic = some d)
    (hd : d.fault.isAtQuote = true) : (lexShowing shown source).tokens ≠ [] := by
  have hplace := place_of_diagnostic h
  rw [lexShowing_of_error shown hplace]
  rw [hs] at hplace ⊢
  obtain ⟨b, c, qs, rfl, hposition, hcuts⟩ := exists_cuts_before_quote ha hplace hd
  rw [hposition, ← List.append_assoc]
  simp only
  rw [tokensBefore_after, place_of_cuts hcuts]
  simp only
  rw [tokensOf_of_cuts shown hcuts]
  cases ps with
  | nil => exact absurd rfl hps
  | cons p ps => exact joinAmounts_cons_ne_nil p (ps ++ qs)

/-- Where a fault is at the end of the text, there is no token. -/
theorem tokens_eq_nil_of_end (shown : Form → String) {source : String} {d : Diagnostic}
    (h : (lexShowing shown source).diagnostic = some d) (hd : d.fault.isAtQuote = false) :
    (lexShowing shown source).tokens = [] := by
  have hplace := place_of_diagnostic h
  obtain ⟨u, c, t, qs, f, hs, -, hf, rfl⟩ := exists_lexeme_of_placeFrom_error (a := []) hplace
  rw [lexShowing_of_error shown hplace]
  rcases offset_of_lexeme_error hf with ⟨hquote, -⟩ | ⟨-, hend⟩
  · rw [hquote] at hd
    cases hd
  · -- the text before the end is the whole text
    have hall : (c :: t).take f.offset = c :: t := List.take_of_length_le (by simp [hend])
    have htokens := tokensBefore_after shown source.toList []
    rw [List.append_nil, hplace] at htokens
    rw [hall, List.nil_append, ← hs]
    exact htokens

/-! ## Top theorem (proved from the lemmas above) -/

/-- **A header in front of a fault.** Behind a text whose last token ends its parameter list, a
blank and a text that does not lex: there are the same parameters if the fault is at a quote, and
none at all if it is at the end of the text. -/
theorem parameters_extract_of_diagnostic (id : ObjectId) (header body : String) (d : Diagnostic)
    (hheader : (lex header).diagnostic = none) (hends : EndsList (lex header).tokens)
    (hbody : (lex (header ++ " " ++ body)).diagnostic = some d) :
    (extract id (header ++ " " ++ body)).parameters =
      if d.fault.isAtQuote then (extract id header).parameters else [] := by
  have hblank : ∀ c ∈ (' ' :: body.toList).head?, isWordPart c = false := by
    intro c hc
    obtain rfl := Option.some.inj hc
    decide
  cases hd : d.fault.isAtQuote with
  | true =>
    obtain ⟨ps, hcuts, htokens⟩ := exists_cuts_of_lexed hheader
    rw [htokens] at hends
    have hps : ps ≠ [] := by
      rintro rfl
      obtain ⟨t, ht, -⟩ := hends
      cases ht
    have hne := tokens_ne_nil_of_quote _ (hcuts.of_terminator hends hblank).1 hps (by simp) hbody hd
    rw [if_pos rfl]
    rw [append_blank] at hne ⊢
    rw [← htokens] at hends
    exact (extract_append id _ hheader hends hblank (Or.inr hne)).1
  | false =>
    rw [if_neg (by simp)]
    show (scanTokens id (lex _).tokens).parameters = []
    rw [lex, tokens_eq_nil_of_end _ hbody hd]
    rfl

/-- A header in front of a string and in front of a comment that are never closed. -/
theorem parameters_extract_of_diagnostic_sample :
    (extract 1 "create proc p @a int = 1 as begin print N'x").parameters = [⟨1, "@a", "1"⟩] ∧
      (extract 1 "create proc p @a int = 1 as begin /* x").parameters = [] := by
  have hheader : (lex "create proc p @a int = 1 as begin").diagnostic = none := by decide +kernel
  have hends : EndsList (lex "create proc p @a int = 1 as begin").tokens :=
    ⟨⟨.begin, "begin"⟩, by decide +kernel, rfl⟩
  have hstring := parameters_extract_of_diagnostic 1 "create proc p @a int = 1 as begin" "print N'x"
    ⟨.unterminatedString, ⟨1, 42⟩⟩ hheader hends (by decide +kernel)
  have hcomment := parameters_extract_of_diagnostic 1 "create proc p @a int = 1 as begin" "/* x"
    ⟨.unclosedComment, ⟨1, 39⟩⟩ hheader hends (by decide +kernel)
  rw [if_pos (by decide)] at hstring
  rw [if_neg (by decide)] at hcomment
  have hrecord : (extract 1 "create proc p @a int = 1 as begin").parameters =
      [⟨1, "@a", "1"⟩] := by decide +kernel
  exact ⟨hstring.trans hrecord, hcomment⟩

/-- Not every fault leaves the parameters of a header: here a comment in the body is never
closed. -/
theorem not_forall_parameters_extract_of_fault :
    ¬∀ (id : ObjectId) (header body : String), (lex header).diagnostic = none →
      EndsList (lex header).tokens → (lex (header ++ " " ++ body)).diagnostic ≠ none →
        (extract id (header ++ " " ++ body)).parameters = (extract id header).parameters := by
  intro h
  have hsame := h 1 "create proc p @a int = 1 as begin" "/* x" (by decide +kernel)
    ⟨⟨.begin, "begin"⟩, by decide +kernel, rfl⟩ (by decide +kernel)
  revert hsame
  decide +kernel

end RoutineParams
