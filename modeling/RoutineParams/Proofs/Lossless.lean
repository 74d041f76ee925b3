import RoutineParams.Proofs.Pieces

/-!
# Nothing is lost

The tokens of a text, written one after the other, are the text where there is no diagnostic. Where
there is one they are less than the text: either nothing or all that stands before the position of
the diagnostic. It does not matter how lexemes without a place would be written.

    joined l.tokens = source ↔ l.diagnostic = none   for l = lexShowing shown source
                                                                         (lexShowing_lossless)
-/

namespace RoutineParams

/-- The texts of tokens, one after the other. -/
def joined (tokens : List Token) : String := String.join (tokens.map Token.text)

/-! ## Lemmas -/

theorem joined_cons (t : Token) (tokens : List Token) :
    joined (t :: tokens) = t.text ++ joined tokens := by
  apply String.toList_injective
  simp [joined]

/-- Joining amounts leaves the characters as they are. -/
theorem joined_joinAmounts (ps : List Piece) :
    joined (joinAmounts ps) = String.ofList (textOf ps) := by
  fun_induction joinAmounts ps with
  | case1 => rfl
  | case2 a => rw [joined_cons, textOf_cons, String.ofList_append]; rfl
  | case3 a b ps hfraction ih =>
    rw [joined_cons, ih, textOf_cons, textOf_cons, ← String.ofList_append, List.append_assoc]
  | case4 a b ps hfraction ih =>
    rw [joined_cons, ih, textOf_cons a, String.ofList_append]
    rfl

/-- No token of a text is empty. -/
theorem text_ne_empty_of_mem_tokens (shown : Form → String) (source : String) :
    ∀ t ∈ (lexShowing shown source).tokens, t.text ≠ "" := by
  by_cases htokens : (lexShowing shown source).tokens = []
  · simp [htokens]
  have hnil : source.toList = [] ++ source.toList := rfl
  obtain ⟨_, _, -, -, ps, hcuts, hps⟩ := exists_cuts_of_tokens shown .nil hnil (Or.inr htokens)
  rw [hps]
  exact text_ne_empty_of_mem_joinAmounts ps hcuts.text_ne_nil

/-- Where there is a diagnostic something is left, after nothing or after all that comes before its
position. -/
theorem exists_rest_of_diagnostic (shown : Form → String) {source : String} {d : Diagnostic}
    (hd : (lexShowing shown source).diagnostic = some d) :
    ∃ rest, rest ≠ "" ∧ source = joined (lexShowing shown source).tokens ++ rest ∧
      (joined (lexShowing shown source).tokens = "" ∨
        Position.after (joined (lexShowing shown source).tokens).toList = d.position) := by
  have hnil : source.toList = [] ++ source.toList := rfl
  obtain ⟨b, c, hs, hstart⟩ := lexShowing_start shown .nil hnil
  rw [hd] at hstart
  obtain ⟨hposition, hne, hnone | ⟨hc, ps, hcuts, htokens⟩⟩ := hstart
  · have hjoined : joined (lexShowing shown source).tokens = "" := by rw [hnone]; rfl
    exact ⟨source, hne, by simp [hjoined], Or.inl hjoined⟩
  · have hjoined : joined (lexShowing shown source).tokens = String.ofList b := by
      rw [htokens, joined_joinAmounts, hcuts.textOf_eq]
      rfl
    have hsource : source = String.ofList b ++ String.ofList c := by
      rw [← String.ofList_append, ← hs, String.ofList_toList]
    rw [hjoined, String.toList_ofList]
    exact ⟨String.ofList c, by simpa using hc, hsource, Or.inr hposition⟩

/-- Where there is no diagnostic nothing is left. -/
theorem joined_tokens_of_no_diagnostic (shown : Form → String) {source : String}
    (hd : (lexShowing shown source).diagnostic = none) :
    joined (lexShowing shown source).tokens = source := by
  have hnil : source.toList = [] ++ source.toList := rfl
  obtain ⟨b, c, hs, hc, ps, hcuts, htokens⟩ := exists_cuts_of_tokens shown .nil hnil (Or.inl hd)
  obtain rfl := hc hd
  rw [htokens, joined_joinAmounts, hcuts.textOf_eq, List.nil_append, ← List.append_nil b, ← hs,
    String.ofList_toList]

/-! ## Top theorem (proved from the lemmas above) -/

/-- **Nothing is lost.** No token is empty; the tokens make up the text exactly if there is no
diagnostic; and if there is one something is left, after nothing or after all that comes before
the position of the diagnostic. -/
theorem lexShowing_lossless (shown : Form → String) (source : String) :
    (∀ t ∈ (lexShowing shown source).tokens, t.text ≠ "") ∧
    (joined (lexShowing shown source).tokens = source ↔
      (lexShowing shown source).diagnostic = none) ∧
    ∀ d, (lexShowing shown source).diagnostic = some d →
      ∃ rest, rest ≠ "" ∧ source = joined (lexShowing shown source).tokens ++ rest ∧
        (joined (lexShowing shown source).tokens = "" ∨
          Position.after (joined (lexShowing shown source).tokens).toList = d.position) := by
  refine ⟨text_ne_empty_of_mem_tokens shown source, ⟨fun h => ?_, fun h => ?_⟩, fun d hd => ?_⟩
  · cases hd : (lexShowing shown source).diagnostic with
    | none => rfl
    | some d =>
      -- what is left is not empty, so the tokens are not the whole text
      obtain ⟨rest, hrest, hsource, -⟩ := exists_rest_of_diagnostic shown hd
      rw [h] at hsource
      have hlist := congrArg String.toList hsource
      rw [String.toList_append, List.self_eq_append_right, String.toList_eq_nil_iff] at hlist
      exact absurd hlist hrest
  · exact joined_tokens_of_no_diagnostic shown h
  · exact exists_rest_of_diagnostic shown hd

end RoutineParams
