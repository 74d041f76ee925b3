import RoutineParams.Proofs.Declarations
import RoutineParams.Proofs.Gaps

/-!
# Rendering

Written tokens with gaps before them make a text. The lexer reads the tokens back, and the gaps
between them leave no trace in the declarations.

    joinAmounts ps keeps the tokens of the items, whatever the gaps                  (cuts_items)
    tokens with the same significant ones declare the same
                                                          (parameters_scanTokens_significant)
-/

namespace RoutineParams

/-! ## What is written -/

/-- A token and the gap before it. -/
structure Item where
  before : List Filler
  token : Written

/-- An item as it is written. -/
def Item.text (i : Item) : List Char := gapText i.before ++ i.token.text

/-- Items as they are written, one after the other. -/
def rendering (items : List Item) : List Char := items.flatMap Item.text

/-- A gap stands wherever two words or numbers would touch. -/
def Separated (items : List Item) : Prop :=
  items.IsChain fun i j =>
    i.token.isWordOrNumber = true → j.token.isWordOrNumber = true → j.before ≠ []

/-- Tokens of which the first is complete in front of the second, unless both are words or
numbers. -/
def Written.MayTouch (a b : Written) : Prop :=
  a.isWordOrNumber = true ∧ b.isWordOrNumber = true ∨ ∀ c ∈ b.text.head?, a.endsAt c = true

/-- The tokens that are not passed over. -/
def significant (tokens : List Token) : List Token := tokens.filter (·.role ≠ .ignorable)

/-! ## Lemmas: significant tokens -/

theorem significant_append (a b : List Token) :
    significant (a ++ b) = significant a ++ significant b := List.filter_append a b

theorem parameters_scanFrom_significant (id : ObjectId) (d : Declaration) (done : List Parameter)
    (index index' : Nat) (tokens : List Token) :
    (scanFrom id d done index (significant tokens)).parameters =
      (scanFrom id d done index' tokens).parameters := by
  induction tokens generalizing d done index index' with
  | nil => rfl
  | cons t tokens ih =>
    by_cases ht : t.role = .ignorable
    · have hskip : significant (t :: tokens) = significant tokens := by simp [significant, ht]
      rw [hskip, scanFrom, ht]
      exact ih d done index (index' + 1)
    · have hkeep : significant (t :: tokens) = t :: significant tokens := by
        simp [significant, ht]
      rw [hkeep, scanFrom, scanFrom]
      cases hrole : t.role with
      | ignorable => exact absurd hrole ht
      | terminator => rfl
      | parameterMarker => exact ih _ _ _ _
      | literalCandidate => exact ih _ _ _ _
      | other => exact ih _ _ _ _

/-- What is passed over has no say in what is declared. -/
theorem parameters_scanTokens_significant (id : ObjectId) (tokens : List Token) :
    (scanTokens id (significant tokens)).parameters = (scanTokens id tokens).parameters :=
  parameters_scanFrom_significant id .none [] 0 0 tokens

/-- The pieces of a gap are passed over. -/
theorem significant_joinAmounts_gap {ps : List Piece} (h : ∀ p ∈ ps, p.form.isGap = true) :
    significant (joinAmounts ps) = [] := by
  induction ps with
  | nil => rfl
  | cons p ps ih =>
    have hp := h p List.mem_cons_self
    have hmoney : p.form.isMoney = false := by
      cases hf : p.form <;> simp [hf, Form.isGap, Form.isMoney] at hp ⊢
    have hrole : p.token.role = .ignorable := by
      cases hf : p.form <;>
        simp [hf, Form.isGap, Form.kind, Piece.token, Token.role, Token.isReturns, Kind.role]
          at hp ⊢
    have hrest := ih fun q hq => h q (List.mem_cons_of_mem p hq)
    rw [joinAmounts_cons (by simp [Piece.isFractionOf, hmoney])]
    simpa [significant, hrole] using hrest

/-! ## Lemmas: the text -/

theorem rendering_cons (i : Item) (items : List Item) :
    rendering (i :: items) = gapText i.before ++ (i.token.text ++ rendering items) := by
  simp [rendering, Item.text]

namespace Written

theorem text_ne_nil (a : Written) : a.text ≠ [] := by
  match a with
  | literal (.numeral n) =>
    obtain ⟨c, t, ht, -⟩ := n.head?_text
    simp [text, Literal.text, ht]
  | word _ | localVariable _ | bracketed _ | literal (.string _) | literal (.national _)
  | literal (.hex _ _) | literal (.null _) | literal (.money _) | literal (.cents _ _) | equals
  | leftParen | rightParen | comma | dot =>
    simp [text, Literal.text, Word.letters, VariableName.text]

/-- No token starts with a line feed. -/
theorem head?_text_ne_newline (a : Written) : a.text.head? ≠ some '\n' := by
  have hletter : ∀ w : Word, w.first ≠ '\n' := fun w => ne_of_class w.isLetter_first (by decide)
  match a with
  | literal (.numeral n) =>
    obtain ⟨c, t, ht, hc⟩ := n.head?_text
    rcases hc with hc | rfl
    · simpa [text, Literal.text, ht] using ne_of_class (p := Char.isDigit) hc (by decide)
    · simp [text, Literal.text, ht]
  | word w | literal (.null ⟨w, _⟩) => simpa [text, Literal.text, Word.letters] using hletter w
  | localVariable _ | bracketed _ | literal (.string _) | literal (.national _)
  | literal (.hex _ _) | literal (.money _) | literal (.cents _ _) | equals
  | leftParen | rightParen | comma | dot =>
    simp [text, Literal.text, VariableName.text]

end Written

/-- What follows an item does not go on with its token. -/
theorem endsAt_rendering {i j : Item} (items : List Item) (r : List Char)
    (hsep : i.token.isWordOrNumber = true → j.token.isWordOrNumber = true → j.before ≠ [])
    (htouch : i.token.MayTouch j.token) :
    ∀ c ∈ (rendering (j :: items) ++ r).head?, i.token.endsAt c = true := by
  intro c hc
  rw [rendering_cons, List.append_assoc, List.head?_append] at hc
  cases hgap : (gapText j.before).head? with
  | some d =>
    -- a gap comes first
    rw [hgap] at hc
    obtain rfl := Option.some.inj hc
    exact endsAt_of_startsGap i.token (startsGap_of_head? j.before d hgap)
  | none =>
    have hbefore : j.before = [] := by
      cases hb : j.before with
      | nil => rfl
      | cons g gap =>
        obtain ⟨d, t, ht, -⟩ := g.exists_text
        simp [hb, gapText_cons, ht] at hgap
    rw [hgap, Option.none_or, List.append_assoc, List.head?_append_of_ne_nil _ j.token.text_ne_nil]
      at hc
    rcases htouch with ⟨hi, hj⟩ | hends
    · exact absurd hbefore (hsep hi hj)
    · exact hends c hc

/-- The token of an item and the pieces after it make no amount together. -/
theorem isFractionOf_eq_false {a : Written} {s r : List Char} {ps : List Piece}
    (hends : ∀ c ∈ (s ++ r).head?, a.endsAt c = true)
    (hhead : ∀ q ∈ ps.head?, q.form.isFraction = true → s.head? = some '.') :
    ∀ p ∈ a.pieces.getLast?, ∀ q ∈ ps.head?, q.isFractionOf p = false := by
  intro p hp q hq
  rw [Piece.isFractionOf, Bool.and_eq_false_iff]
  cases hmoney : p.form.isMoney with
  | false => exact Or.inl rfl
  | true =>
    cases hfraction : q.form.isFraction with
    | false => exact Or.inr rfl
    | true =>
      have hpoint : (s ++ r).head? = some '.' := by
        rw [List.head?_append, hhead q hq hfraction]
        rfl
      have hcontra := hends '.' hpoint
      rw [a.endsAt_of_isMoney p hp hmoney] at hcontra
      cases hcontra

/-- Of the pieces of a gap and a token only the token is significant. -/
theorem significant_joinAmounts_item {a : Written} {gs ps : List Piece}
    (hgap : ∀ p ∈ gs, p.form.isGap = true)
    (hjoin : ∀ p ∈ a.pieces.getLast?, ∀ q ∈ ps.head?, q.isFractionOf p = false) :
    significant (joinAmounts (gs ++ (a.pieces ++ ps))) =
      significant [a.token] ++ significant (joinAmounts ps) := by
  have hmoney : ∀ p ∈ gs.getLast?, ∀ q ∈ (a.pieces ++ ps).head?, q.isFractionOf p = false := by
    intro p hp q _
    have := hgap p (List.mem_of_getLast? hp)
    cases hf : p.form <;> simp [hf, Form.isGap, Piece.isFractionOf, Form.isMoney] at this ⊢
  rw [joinAmounts_append hmoney, joinAmounts_append hjoin, a.joinAmounts_pieces,
    significant_append, significant_append, significant_joinAmounts_gap hgap, List.nil_append]

/-! ## Top theorem (proved from the lemmas above) -/

/-- **The tokens of a text are read back** in front of a text that does not go on with the last of
them, and nothing else that is significant. -/
theorem cuts_items {items : List Item} {r : List Char} (hsep : Separated items)
    (htouch : (items.map Item.token).IsChain Written.MayTouch)
    (hends : ∀ i ∈ items.getLast?, ∀ c ∈ r.head?, i.token.endsAt c = true) :
    ∃ ps, Cuts r (rendering items) ps ∧
      significant (joinAmounts ps) = significant (items.map fun i => i.token.token) ∧
      (∀ q ∈ ps.head?, q.form.isFraction = true → (rendering items).head? = some '.') ∧
      ∀ i ∈ items.getLast?, i.token.pieces <:+ ps := by
  induction items with
  | nil => exact ⟨[], .nil, rfl, by simp, by simp⟩
  | cons i items ih =>
    obtain ⟨ps, hps, htokens, hhead, hlast⟩ := ih hsep.of_cons
      (List.IsChain.of_cons (by rwa [List.map_cons] at htouch)) (fun j hj => hends j (by
        cases items with
        | nil => simp at hj
        | cons k items => rwa [List.getLast?_cons_cons]))
    have hnext : ∀ c ∈ (rendering items ++ r).head?, i.token.endsAt c = true := by
      cases items with
      | nil => exact hends i rfl
      | cons j items =>
        exact endsAt_rendering items r (List.isChain_cons_cons.1 hsep).1
          (List.isChain_cons_cons.1 htouch).1
    obtain ⟨gs, hgs, hgap⟩ := cuts_gap i.before (i.token.text ++ rendering items ++ r) (by
      rw [List.append_assoc, List.head?_append_of_ne_nil _ i.token.text_ne_nil]
      exact i.token.head?_text_ne_newline)
    have hcuts := hgs.append ((i.token.cuts (rendering items ++ r) hnext).append hps)
    rw [← rendering_cons] at hcuts
    refine ⟨_, hcuts, ?_, ?_, ?_⟩
    · rw [significant_joinAmounts_item hgap (isFractionOf_eq_false hnext hhead), htokens,
        List.map_cons, ← significant_append, List.singleton_append]
    · intro q hq hfraction
      cases gs with
      | cons g gs =>
        obtain rfl := Option.some.inj hq
        have := hgap g List.mem_cons_self
        cases hf : g.form <;> simp [hf, Form.isGap, Form.isFraction] at this hfraction
      | nil =>
        rw [List.nil_append, List.head?_append_of_ne_nil _ i.token.pieces_ne_nil] at hq
        rw [rendering_cons, ← hgs.textOf_eq]
        simp only [textOf, List.flatMap_nil, List.nil_append]
        rw [List.head?_append_of_ne_nil _ i.token.text_ne_nil]
        exact i.token.head?_of_isFraction q hq hfraction
    · intro j hj
      cases items with
      | nil =>
        obtain rfl := Option.some.inj hj
        cases hps
        rw [List.append_nil]
        exact List.suffix_append _ _
      | cons k items =>
        rw [List.getLast?_cons_cons] at hj
        exact ((hlast j hj).trans (List.suffix_append _ _)).trans (List.suffix_append _ _)

end RoutineParams
