import RoutineParams.Proofs.Characters

/-!
# The first lexeme

Which lexeme a text starts with, told from its first character, or two where that is not enough. Each
way is told by what it takes to come to it alone, so that whoever knows this need not look at the ways
that are tried before it.

    lexeme c s = r ↔ FirstLexeme c s r                                          (lexeme_eq_iff)
-/

namespace RoutineParams

/-! ## Definitions -/

/-- Characters other than letters, digits and blanks that no sign starts with. -/
def marks : List Char := ['\'', '"', '[', '.', '#', '@', '$', '?']

/-- The text `c :: s` starts with the lexeme `r`, or with one that has no end. -/
inductive FirstLexeme (c : Char) (s : List Char) (r : Except LexFailure Lexeme) : Prop where
  | lineBreak (hc : c = '\r') (hr : .ok ⟨.blank, if s.head? = some '\n' then 1 else 0⟩ = r)
  | blank (hc : isBlank c = true) (hreturn : c ≠ '\r') (hr : .ok ⟨.blank, 0⟩ = r)
  | national (hc : c = 'N' ∨ c = 'n') (hs : s.head? = some '\'')
      (hr : quoted .nationalString .unterminatedString none '\'' 1 (s.drop 1) = r)
  | hexadecimal (hc : c = 'X' ∨ c = 'x') (hs : s.head? = some '\'')
      (hr : quoted .hex .unterminatedString (some '\\') '\'' 1 (s.drop 1) = r)
  | string (hc : c = '\'') (hr : quoted .string .unterminatedString none '\'' 0 s = r)
  | doubleQuoted (hc : c = '"') (hr : quoted .quotedWord (.unclosedQuote '"') none '"' 0 s = r)
  | bracketed (hc : c = '[') (hr : quoted .quotedWord (.unclosedQuote ']') none ']' 0 s = r)
  | number (hc : c.isDigit = true ∨ c = '.') (hr : .ok (numberLexeme (c :: s)) = r)
  | lineComment (hc : c = '-') (hs : s.head? = some '-')
      (hr : .ok ⟨.lineComment, if countWhile (· != '\n') s < s.length then
        countWhile (· != '\n') s + 1 else countWhile (· != '\n') s⟩ = r)
  | blockComment {n : Nat} (hc : c = '/') (hs : s.head? = some '*')
      (hn : countToCommentEnd 0 1 (s.drop 1) = some n) (hr : .ok ⟨.blockComment, n⟩ = r)
  | openComment (hc : c = '/') (hs : s.head? = some '*')
      (hn : countToCommentEnd 0 1 (s.drop 1) = none)
      (hr : .error ⟨.unclosedComment, s.length + 1⟩ = r)
  | numberSign (hc : c = '#') (hr : .ok (hashLexeme s) = r)
  | atSign (hc : c = '@') (hr : .ok (atLexeme s) = r)
  | dollarSign (hc : c = '$') (hr : dollarLexeme s = r)
  | questionMark (hc : c = '?') (hr : .ok ⟨.sign .unknown, countWhile isNumeric s⟩ = r)
  | word (hc : isLetter c = true) (hs : c ∈ ['N', 'n', 'X', 'x'] → s.head? ≠ some '\'')
      (hr : .ok ⟨.word (c :: s.takeWhile isWordPart), countWhile isWordPart s⟩ = r)
  | sign (hblank : isBlank c = false) (hdigit : c.isDigit = false) (hletter : isLetter c = false)
      (hmarks : c ∉ marks) (hline : c = '-' → s.head? ≠ some '-')
      (hblock : c = '/' → s.head? ≠ some '*')
      (hr : .ok ((signLexeme? (c :: s)).getD ⟨.sign .unknown, 0⟩) = r)

variable {c : Char} {s : List Char} {r : Except LexFailure Lexeme}

/-! ## Lemmas -/

theorem isWordStart_of_isLetter (h : isLetter c = true) : isWordStart c = true := by
  simp only [isLetter, Bool.or_eq_true] at h
  rcases h with h | h <;> simp [isWordStart, h]

theorem isLetter_of_isWordStart (h : isWordStart c = true) (hhash : c ≠ '#') (hat : c ≠ '@') :
    isLetter c = true := by
  simpa [isWordStart, isLetter, hhash, hat] using h

/-- Whatever a text starts with is told in one of these ways. -/
theorem firstLexeme_lexeme (c : Char) (s : List Char) : FirstLexeme c s (lexeme c s) := by
  obtain ⟨r, hr⟩ : ∃ r, lexeme c s = r := ⟨_, rfl⟩
  rw [hr]
  unfold lexeme at hr
  by_cases hreturn : c = '\r'
  · rw [if_pos hreturn] at hr
    exact .lineBreak hreturn hr
  rw [if_neg hreturn] at hr
  by_cases hblank : isBlank c = true
  · rw [if_pos hblank] at hr
    exact .blank hblank hreturn hr
  rw [if_neg hblank] at hr
  by_cases hnational : (c = 'N' ∨ c = 'n') ∧ s.head? = some '\''
  · rw [if_pos hnational] at hr
    exact .national hnational.1 hnational.2 hr
  rw [if_neg hnational] at hr
  by_cases hhex : (c = 'X' ∨ c = 'x') ∧ s.head? = some '\''
  · rw [if_pos hhex] at hr
    exact .hexadecimal hhex.1 hhex.2 hr
  rw [if_neg hhex] at hr
  by_cases hstring : c = '\''
  · rw [if_pos hstring] at hr
    exact .string hstring hr
  rw [if_neg hstring] at hr
  by_cases hdouble : c = '"'
  · rw [if_pos hdouble] at hr
    exact .doubleQuoted hdouble hr
  rw [if_neg hdouble] at hr
  by_cases hbracket : c = '['
  · rw [if_pos hbracket] at hr
    exact .bracketed hbracket hr
  rw [if_neg hbracket] at hr
  by_cases hnumber : c.isDigit = true ∨ c = '.'
  · rw [if_pos hnumber] at hr
    exact .number hnumber hr
  rw [if_neg hnumber] at hr
  by_cases hline : c = '-' ∧ s.head? = some '-'
  · rw [if_pos hline] at hr
    exact .lineComment hline.1 hline.2 hr
  rw [if_neg hline] at hr
  by_cases hblock : c = '/' ∧ s.head? = some '*'
  · rw [if_pos hblock] at hr
    split at hr
    · exact .blockComment hblock.1 hblock.2 ‹_› hr
    · exact .openComment hblock.1 hblock.2 ‹_› hr
  rw [if_neg hblock] at hr
  by_cases hhash : c = '#'
  · rw [if_pos hhash] at hr
    exact .numberSign hhash hr
  rw [if_neg hhash] at hr
  by_cases hat : c = '@'
  · rw [if_pos hat] at hr
    exact .atSign hat hr
  rw [if_neg hat] at hr
  by_cases hdollar : c = '$'
  · rw [if_pos hdollar] at hr
    exact .dollarSign hdollar hr
  rw [if_neg hdollar] at hr
  by_cases hquestion : c = '?'
  · rw [if_pos hquestion] at hr
    exact .questionMark hquestion hr
  rw [if_neg hquestion] at hr
  by_cases hstart : isWordStart c = true
  · rw [if_pos hstart] at hr
    refine .word (isLetter_of_isWordStart hstart hhash hat) (fun hmem hs => ?_) hr
    simp only [List.mem_cons, List.not_mem_nil, or_false] at hmem
    rcases hmem with hn | hn | hx | hx
    · exact hnational ⟨.inl hn, hs⟩
    · exact hnational ⟨.inr hn, hs⟩
    · exact hhex ⟨.inl hx, hs⟩
    · exact hhex ⟨.inr hx, hs⟩
  · rw [if_neg hstart] at hr
    obtain ⟨hdigit, hdot⟩ := not_or.1 hnumber
    refine .sign (by simpa using hblank) (by simpa using hdigit) ?_ ?_
      (fun hc hs => hline ⟨hc, hs⟩) (fun hc hs => hblock ⟨hc, hs⟩) hr
    · exact Bool.eq_false_iff.2 fun hletter => hstart (isWordStart_of_isLetter hletter)
    · simp only [marks, List.mem_cons, List.not_mem_nil, or_false, not_or]
      exact ⟨hstring, hdouble, hbracket, hdot, hhash, hat, hdollar, hquestion⟩

/-- The way tells the lexeme. -/
theorem FirstLexeme.lexeme_eq (h : FirstLexeme c s r) : lexeme c s = r := by
  cases h with
  | lineBreak hc hr | string hc hr | doubleQuoted hc hr | bracketed hc hr | numberSign hc hr
  | atSign hc hr | dollarSign hc hr | questionMark hc hr =>
    subst hc
    exact hr
  | blank hc hreturn hr =>
    unfold lexeme
    rwa [if_neg hreturn, if_pos hc]
  | national hc hs hr | hexadecimal hc hs hr =>
    obtain ⟨s, rfl⟩ := List.head?_eq_some_iff.1 hs
    rcases hc with rfl | rfl <;> exact hr
  | number hc hr =>
    have hne : ∀ d, (d.isDigit || d == '.') = false → c ≠ d := fun d hd =>
      ne_of_class (p := fun c => c.isDigit || c == '.') (by simpa using hc) hd
    have hblank : isBlank c = false := by
      rcases hc with hc | rfl
      · exact isBlank_of_isDigit hc
      · rfl
    unfold lexeme
    rwa [if_neg (hne '\r' (by decide)), if_neg (by simp [hblank]),
      if_neg (fun h => h.1.elim (hne 'N' (by decide)) (hne 'n' (by decide))),
      if_neg (fun h => h.1.elim (hne 'X' (by decide)) (hne 'x' (by decide))),
      if_neg (hne '\'' (by decide)), if_neg (hne '"' (by decide)), if_neg (hne '[' (by decide)),
      if_pos hc]
  | lineComment hc hs hr =>
    obtain ⟨s, rfl⟩ := List.head?_eq_some_iff.1 hs
    subst hc
    exact hr
  | blockComment hc hs hn hr | openComment hc hs hn hr =>
    subst hc
    unfold lexeme
    rw [if_neg (by decide), if_neg (by decide), if_neg (by simp), if_neg (by simp),
      if_neg (by decide), if_neg (by decide), if_neg (by decide), if_neg (by decide),
      if_neg (by simp), if_pos ⟨rfl, hs⟩, hn]
    exact hr
  | word hc hs hr =>
    have hdigit := isDigit_of_isLetter hc
    have hne : ∀ d, isLetter d = false → c ≠ d := fun d hd => ne_of_class hc hd
    unfold lexeme
    rwa [if_neg (hne '\r' (by decide)), if_neg (by simp [isBlank_of_isLetter hc]),
      if_neg (fun h => hs (by rcases h.1 with rfl | rfl <;> simp) h.2),
      if_neg (fun h => hs (by rcases h.1 with rfl | rfl <;> simp) h.2),
      if_neg (hne '\'' (by decide)), if_neg (hne '"' (by decide)), if_neg (hne '[' (by decide)),
      if_neg (by simp [hdigit, hne '.' (by decide)]),
      if_neg (fun h => hne '-' (by decide) h.1), if_neg (fun h => hne '/' (by decide) h.1),
      if_neg (hne '#' (by decide)), if_neg (hne '@' (by decide)), if_neg (hne '$' (by decide)),
      if_neg (hne '?' (by decide)), if_pos (isWordStart_of_isLetter hc)]
  | sign hblank hdigit hletter hmarks hline hblock hr =>
    have hne : ∀ d, isLetter d = true → c ≠ d := by
      rintro d hd rfl
      rw [hd] at hletter
      cases hletter
    simp only [marks, List.mem_cons, List.not_mem_nil, or_false, not_or] at hmarks
    obtain ⟨hstring, hdouble, hbracket, hdot, hhash, hat, hdollar, hquestion⟩ := hmarks
    have hreturn : c ≠ '\r' := by
      rintro rfl
      cases hblank
    have hstart : ¬isWordStart c = true := fun h => by
      rw [isLetter_of_isWordStart h hhash hat] at hletter
      cases hletter
    unfold lexeme
    rwa [if_neg hreturn, if_neg (by simp [hblank]),
      if_neg (fun h => h.1.elim (hne 'N' (by decide)) (hne 'n' (by decide))),
      if_neg (fun h => h.1.elim (hne 'X' (by decide)) (hne 'x' (by decide))), if_neg hstring,
      if_neg hdouble, if_neg hbracket, if_neg (by simp [hdigit, hdot]),
      if_neg (fun h => hline h.1 h.2), if_neg (fun h => hblock h.1 h.2), if_neg hhash, if_neg hat,
      if_neg hdollar, if_neg hquestion, if_neg hstart]

/-! ## Top theorem (proved from the lemmas above) -/

/-- **What a text starts with** is told in one of these ways, and each way tells the lexeme. -/
theorem lexeme_eq_iff : lexeme c s = r ↔ FirstLexeme c s r :=
  ⟨fun h => h ▸ firstLexeme_lexeme c s, FirstLexeme.lexeme_eq⟩

end RoutineParams
