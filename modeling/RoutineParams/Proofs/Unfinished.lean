import RoutineParams.Proofs.Faults

/-!
# Tokens before an unfinished lexeme

Where the lexer fails, it has cut pieces off the text and stands at a lexeme that is never closed. A
fault that is told at the end of the text leaves no token. One that is told at a quote leaves the
tokens of the pieces, whatever these looked at behind themselves, and the letter that stands before
the quote as a word of its own.

    a text has a diagnostic ↔ the lexer fails on a lexeme of it              (diagnostic_ne_none_iff)
    tokens of the text = those of the pieces ++ those of the letter             (tokens_of_failsAt)
-/

namespace RoutineParams

/-! ## Definitions -/

/-- The lexer cuts the pieces `ps` off the text `s` and fails with `f` on the lexeme that starts
with `c` and goes on with `t`. -/
structure FailsAt (s : List Char) (ps : List Piece) (c : Char) (t : List Char) (f : LexFailure) :
    Prop where
  text : s = textOf ps ++ c :: t
  cuts : Cuts (c :: t) (textOf ps) ps
  fails : lexeme c t = .error f

/-- The tokens that a lexeme leaves which starts with `c` and has no end. -/
def leftTokens (c : Char) : List Token :=
  if c ∈ quoteLetters then [⟨.identifier, String.singleton c⟩] else []

/-! ## Lemmas: the lexeme that fails -/

section
variable {s t : List Char} {ps : List Piece} {c : Char} {f : LexFailure}

theorem joinAmounts_leftPieces (ps : List Piece) (c : Char) :
    joinAmounts (ps ++ leftPieces c) = joinAmounts ps ++ leftTokens c := by
  have htoken : ∀ c ∈ quoteLetters,
      (⟨.word [c], [c]⟩ : Piece).token = ⟨.identifier, String.singleton c⟩ := by
    simp only [quoteLetters, List.forall_mem_cons]
    exact ⟨by decide +kernel, by decide +kernel, by decide +kernel, by decide +kernel, by simp⟩
  unfold leftPieces leftTokens
  split
  · next hc =>
    rw [joinAmounts_append, joinAmounts, htoken c hc]
    -- a word is never the fraction of an amount
    rintro p - q hq
    obtain rfl := Option.some.inj hq
    exact Bool.and_false _
  · rw [List.append_nil, List.append_nil]

theorem place_of_failsAt (h : FailsAt s ps c t f) :
    place s = .error ⟨f.fault, .after (textOf ps ++ (c :: t).take f.offset)⟩ := by
  have hplace := placeFrom_of_fails h.cuts h.fails [] []
  rwa [← h.text] at hplace

theorem exists_failsAt {d : Diagnostic} (h : place s = .error d) :
    ∃ ps c t f, FailsAt s ps c t f := by
  obtain ⟨u, c, t, ps, f, hs, hcuts, hf, -⟩ := exists_lexeme_of_placeFrom_error (a := []) h
  have hu := hcuts.textOf_eq
  exact ⟨ps, c, t, f, by rw [hu, hs], by rwa [hu], hf⟩

end

/-! ## Lemmas: diagnostics and tokens -/

section
variable (shown : Form → String) {source : String} {t : List Char} {ps : List Piece} {c : Char}
  {f : LexFailure}

theorem diagnostic_of_failsAt (h : FailsAt source.toList ps c t f) :
    (lexShowing shown source).diagnostic =
      some ⟨f.fault, .after (textOf ps ++ (c :: t).take f.offset)⟩ := by
  rw [lexShowing_of_error shown (place_of_failsAt h)]

theorem diagnostic_ne_none_iff :
    (lexShowing shown source).diagnostic ≠ none ↔
      ∃ ps c t f, FailsAt source.toList ps c t f := by
  constructor
  · intro h
    obtain ⟨d, hd⟩ := Option.ne_none_iff_exists'.1 h
    exact exists_failsAt (place_of_diagnostic hd)
  · rintro ⟨ps, c, t, f, h⟩
    rw [diagnostic_of_failsAt shown h]
    exact Option.some_ne_none _

theorem tokens_of_failsAt (h : FailsAt source.toList ps c t f) :
    (lexShowing shown source).tokens =
      if f.fault.isAtQuote then joinAmounts ps ++ leftTokens c else [] := by
  cases hquote : f.fault.isAtQuote with
  | false => exact tokens_eq_nil_of_end shown (diagnostic_of_failsAt shown h) hquote
  | true =>
    have hcuts := cuts_before_quote h.cuts h.fails hquote
    have hsource : source.toList = textOf ps ++ (c :: t).take f.offset ++ (c :: t).drop f.offset := by
      rw [List.append_assoc, List.take_append_drop]
      exact h.text
    rw [if_pos rfl, lexShowing_of_error shown (place_of_failsAt h), hsource]
    simp only
    rw [tokensBefore_after, place_of_cuts hcuts]
    simp only
    rw [tokensOf_of_cuts shown hcuts, joinAmounts_leftPieces]

end

/-! ## Top theorem (proved from the lemmas above) -/

/-- **What an unfinished lexeme leaves.** A text with a diagnostic is one on a lexeme of which the
lexer fails. Its tokens are those of the pieces before that lexeme, and of the lexeme no more than
the letter before its quote; where the fault is at the end of the text there are none. The
parameters are read from these. -/
theorem lexShowing_of_unfinished (shown : Form → String) (source : String) :
    ((lexShowing shown source).diagnostic ≠ none ↔ ∃ ps c t f, FailsAt source.toList ps c t f) ∧
    ∀ ps c t f, FailsAt source.toList ps c t f →
      (lexShowing shown source).tokens =
        (if f.fault.isAtQuote then joinAmounts ps ++ leftTokens c else []) ∧
      ∀ id, (extract id source).parameters =
        (scanTokens id (if f.fault.isAtQuote then joinAmounts ps ++ leftTokens c else
          [])).parameters := by
  refine ⟨diagnostic_ne_none_iff shown, fun ps c t f h => ⟨tokens_of_failsAt shown h, ?_⟩⟩
  intro id
  rw [← tokens_of_failsAt (fun _ => "") h]
  rfl

/-- A string that is never closed, with a letter before its quote, behind an amount of two pieces. -/
theorem lexShowing_of_unfinished_sample :
    FailsAt "=$1.5N'x".toList
        [⟨.sign .equals, ['=']⟩, ⟨.placeholder ['1'], ['$', '1']⟩, ⟨.number ['.', '5'], ['.', '5']⟩]
        'N' ['\'', 'x'] ⟨.unterminatedString, 1⟩ ∧
      (lexShowing (fun _ => "") "=$1.5N'x").tokens =
        [⟨.equals, "="⟩, ⟨.money, "$1.5"⟩] ++ [⟨.identifier, "N"⟩] ∧
      (lexShowing (fun _ => "") "=$1.5N'x").diagnostic ≠ none := by
  have hfails : FailsAt "=$1.5N'x".toList
      [⟨.sign .equals, ['=']⟩, ⟨.placeholder ['1'], ['$', '1']⟩, ⟨.number ['.', '5'], ['.', '5']⟩]
      'N' ['\'', 'x'] ⟨.unterminatedString, 1⟩ := by
    have hequals : lexeme '=' "$1.5N'x".toList = .ok ⟨.sign .equals, 0⟩ := by decide +kernel
    have hwhole : lexeme '$' "1.5N'x".toList = .ok ⟨.placeholder ['1'], 1⟩ := by decide +kernel
    have hfraction : lexeme '.' "5N'x".toList = .ok ⟨.number ['.', '5'], 1⟩ := by decide +kernel
    have hpoint := Cuts.cons (t := ['5']) (s := []) (r := "N'x".toList) hfraction .nil
    have hamount := Cuts.cons (t := ['1']) (s := ".5".toList) (r := "N'x".toList) hwhole hpoint
    exact ⟨rfl, .cons (t := []) hequals hamount, by decide +kernel⟩
  obtain ⟨hiff, hleft⟩ := lexShowing_of_unfinished (fun _ => "") "=$1.5N'x"
  exact ⟨hfails, (hleft _ _ _ _ hfails).1, hiff.2 ⟨_, _, _, _, hfails⟩⟩

/-- Not all tokens of a text with a diagnostic are those of pieces before the lexeme that fails: the
letter before a quote is taken for a word, and becomes a default. -/
theorem not_forall_tokens_prefix :
    (¬∀ (source : String) (ps : List Piece) (c : Char) (t : List Char) (f : LexFailure),
      FailsAt source.toList ps c t f → (lex source).tokens <+: joinAmounts ps) ∧
    (extract 1 "create proc p @a nvarchar(9) = N'abc").parameters = [⟨1, "@a", "N"⟩] := by
  refine ⟨fun h => ?_, by decide +kernel⟩
  have hprefix := h "N'x" [] 'N' ['\'', 'x'] ⟨.unterminatedString, 1⟩ ⟨rfl, .nil, by decide⟩
  revert hprefix
  decide +kernel

end RoutineParams
