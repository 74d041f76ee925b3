import RoutineParams.Proofs.CutOff
import RoutineParams.Proofs.Recovery
import RoutineParams.Proofs.Roles

/-!
# What follows a terminator

A text whose last token ends its parameter list, and texts that go on behind it. The last token is
a word of three letters or more. It ends in front of whatever continues no word, and no lexeme
before it looks beyond it, so the pieces of the text are the first ones of every continuation, and
the scan never comes to the others.

    Cuts [] s ps → (the last token of ps ends the list) → Cuts r s ps      (Cuts.of_terminator)
    extract id (header ++ " " ++ body) = extract id header              (extract_continuation)
-/

namespace RoutineParams

/-! ## Lemmas: pieces in front of another text -/

namespace Cuts

/-- What is cut in front of a text is cut in front of its start. -/
theorem of_append {r q s : List Char} {ps : List Piece} (h : Cuts (r ++ q) s ps) :
    Cuts r s ps := by
  induction h with
  | nil => exact .nil
  | @cons c t s form ps first _ ih =>
    have hfirst : lexeme c (t ++ (s ++ r) ++ q) = .ok ⟨form, t.length⟩ := by
      simpa only [List.append_assoc] using first
    refine .cons (lexeme_of_append hfirst ?_) ih
    rw [List.length_append]
    exact Nat.le_add_right _ _

/-- What is cut in front of three characters is cut in front of whatever goes on with them. -/
theorem append_right {r s : List Char} {ps : List Piece} (h : Cuts r s ps) (r' : List Char)
    (hr : 3 ≤ r.length) : Cuts (r ++ r') s ps := by
  induction h with
  | nil => exact .nil
  | @cons c t s form ps first _ ih =>
    refine .cons ?_ ih
    have := lexeme_append r' first (by simp only [List.length_append]; omega)
    simpa only [List.append_assoc] using this

/-- The first pieces and the others are those of two texts. -/
theorem exists_append {r s : List Char} {ps qs : List Piece} (h : Cuts r s (ps ++ qs)) :
    ∃ a b, s = a ++ b ∧ Cuts (b ++ r) a ps ∧ Cuts r b qs := by
  induction ps generalizing s with
  | nil => exact ⟨[], s, rfl, .nil, h⟩
  | cons p ps ih =>
    cases h with
    | @cons c t s form _ first hrest =>
      obtain ⟨a, b, rfl, ha, hb⟩ := ih hrest
      refine ⟨c :: (t ++ a), b, by simp, .cons ?_ ha, hb⟩
      simpa only [List.append_assoc] using first

end Cuts

/-! ## Lemmas: the last token -/

/-- A text whose last token ends its parameter list. -/
def EndsList (tokens : List Token) : Prop := ∃ t ∈ tokens.getLast?, t.role = .terminator

theorem three_le_length_of_mem : ∀ u ∈ "RETURNS" :: openers, 3 ≤ u.length := by decide

theorem joinAmounts_cons_ne_nil (p : Piece) (ps : List Piece) : joinAmounts (p :: ps) ≠ [] := by
  cases ps with
  | nil => simp [joinAmounts]
  | cons q ps =>
    rw [joinAmounts]
    split <;> simp

/-- The last token of pieces that ends the list is that of the last piece. -/
theorem getLast?_of_joinAmounts {ps : List Piece} {t : Token}
    (ht : (joinAmounts ps).getLast? = some t) (hrole : t.role = .terminator) :
    ∃ before p, ps = before ++ [p] ∧ p.token = t := by
  fun_induction joinAmounts ps with
  | case1 => simp at ht
  | case2 a => exact ⟨[], a, rfl, by simpa using ht⟩
  | case3 a b ps hfraction ih =>
    rw [List.getLast?_cons] at ht
    cases hlast : (joinAmounts ps).getLast? with
    | none =>
      rw [hlast] at ht
      obtain rfl := Option.some.inj ht
      cases hrole
    | some u =>
      rw [hlast] at ht
      obtain rfl := Option.some.inj ht
      obtain ⟨before, p, rfl, hp⟩ := ih hlast
      exact ⟨a :: b :: before, p, rfl, hp⟩
  | case4 a b ps hfraction ih =>
    rw [List.getLast?_cons] at ht
    cases hlast : (joinAmounts (b :: ps)).getLast? with
    | none => exact absurd (List.getLast?_eq_none_iff.1 hlast) (joinAmounts_cons_ne_nil b ps)
    | some u =>
      rw [hlast] at ht
      obtain rfl := Option.some.inj ht
      obtain ⟨before, p, hps, hp⟩ := ih hlast
      exact ⟨a :: before, p, by rw [hps]; rfl, hp⟩

namespace Cuts

/-- **A text whose last token ends its list** is cut in the same way in front of whatever continues
no word. -/
theorem of_terminator {r s : List Char} {ps : List Piece} (h : Cuts [] s ps)
    (hends : EndsList (joinAmounts ps)) (hr : ∀ c ∈ r.head?, isWordPart c = false) :
    Cuts r s ps ∧ ∀ p ∈ ps.getLast?, p.form.isMoney = false := by
  obtain ⟨t, ht, hrole⟩ := hends
  obtain ⟨before, p, rfl, rfl⟩ := getLast?_of_joinAmounts ht hrole
  obtain ⟨w, rfl, hw⟩ := h.of_role_terminator (by simp) hrole
  obtain ⟨a, b, rfl, ha, hb⟩ := h.exists_append
  have hletters : w.letters = b := by simpa [textOf] using hb.textOf_eq
  have hlen : 3 ≤ w.letters.length := by
    have := three_le_length_of_mem _ hw
    rwa [Word.upper, String.length_ofList, List.length_map] at this
  have htwo : 2 ≤ w.upper.length := by
    have := three_le_length_of_mem _ hw
    omega
  subst hletters
  rw [List.append_nil] at ha
  -- no lexeme before the word looks beyond it, and the word ends in front of what follows
  refine ⟨(ha.append_right r hlen).append (cuts_word w r fun c hc => ?_), ?_⟩
  · exact Word.endsAt_of_upper htwo (hr c hc)
  · intro p hp
    rw [Option.mem_def, List.getLast?_concat] at hp
    obtain rfl := Option.some.inj hp
    rfl

end Cuts

/-! ## Lemmas: the tokens of a continuation -/

/-- The tokens of a text that goes on behind a terminator, where it lexes or leaves a token: first
those of the text before. -/
theorem tokens_append (shown : Form → String) {source : String} {a r : List Char}
    {ps : List Piece} (ha : Cuts [] a ps) (hends : EndsList (joinAmounts ps))
    (hr : ∀ c ∈ r.head?, isWordPart c = false) (hs : source.toList = a ++ r)
    (hlex : (lexShowing shown source).diagnostic = none ∨ (lexShowing shown source).tokens ≠ []) :
    ∃ more, (lexShowing shown source).tokens = joinAmounts ps ++ more := by
  obtain ⟨b, c, hbc, -, qs, hqs, htokens⟩ :=
    exists_cuts_of_tokens shown (ha.of_terminator hends hr).1 hs hlex
  have hb : ∀ d ∈ (b ++ []).head?, isWordPart d = false := by
    intro d hd
    refine hr d ?_
    rw [List.append_nil] at hd
    rw [hbc, List.head?_append, hd]
    rfl
  obtain ⟨hcuts, hmoney⟩ := ha.of_terminator hends hb
  obtain ⟨rest, rfl, -⟩ := hcuts.split hqs
  refine ⟨joinAmounts rest, htokens.trans (joinAmounts_append fun p hp q _ => ?_)⟩
  rw [Piece.isFractionOf, hmoney p hp, Bool.false_and]

/-- The scan does not come to what follows a terminator. -/
theorem scanTokens_append (id : ObjectId) {tokens : List Token} (hends : EndsList tokens)
    (more : List Token) :
    (scanTokens id (tokens ++ more)).parameters = (scanTokens id tokens).parameters ∧
      (scanTokens id (tokens ++ more)).stop = (scanTokens id tokens).stop := by
  obtain ⟨t, ht, hrole⟩ := hends
  have hsome : (tokens.find? (·.role = .terminator)).isSome :=
    List.find?_isSome.2 ⟨t, List.mem_of_getLast? ht, by simpa using hrole⟩
  obtain ⟨u, hu⟩ := Option.isSome_iff_exists.1 hsome
  have hfind : (tokens ++ more).find? (·.role = .terminator) = some u := by
    rw [List.find?_append, hu]
    rfl
  have hlist : listOf (tokens ++ more) = listOf tokens := by
    obtain ⟨hrole, before, after, rfl, hbefore⟩ := List.find?_eq_some_iff_append.1 hu
    have hgoes : ∀ x ∈ before, x.role ≠ .terminator := fun x hx => by simpa using hbefore x hx
    have hstop : u.role = .terminator := by simpa using hrole
    rw [List.append_assoc, List.cons_append, listOf_append hgoes, listOf_append hgoes, listOf_cons,
      listOf_cons, if_pos hstop, if_pos hstop]
  rw [parameters_scanTokens, parameters_scanTokens, stop_scanTokens, stop_scanTokens, hlist]
  refine ⟨rfl, ?_⟩
  rw [stopOf, stopOf, hfind, hu, hlist]

/-- A text that lexes is cut into pieces whose tokens it has. -/
theorem exists_cuts_of_lexed {source : String} (h : (lex source).diagnostic = none) :
    ∃ ps, Cuts [] source.toList ps ∧ (lex source).tokens = joinAmounts ps := by
  have hnil : source.toList = [] ++ source.toList := rfl
  obtain ⟨b, c, hs, hc, ps, hcuts, htokens⟩ := exists_cuts_of_tokens _ .nil hnil (Or.inl h)
  obtain rfl := hc h
  rw [List.append_nil] at hs
  exact ⟨ps, hs ▸ hcuts, htokens⟩

/-- What a text declares whose last token ends its list, every text declares that goes on behind
it, if it lexes or leaves a token. -/
theorem extract_append (id : ObjectId) {header : String} (r : List Char)
    (hheader : (lex header).diagnostic = none) (hends : EndsList (lex header).tokens)
    (hr : ∀ c ∈ r.head?, isWordPart c = false)
    (hlex : (lex (header ++ String.ofList r)).diagnostic = none ∨
      (lex (header ++ String.ofList r)).tokens ≠ []) :
    (extract id (header ++ String.ofList r)).parameters = (extract id header).parameters ∧
      (extract id (header ++ String.ofList r)).stop = (extract id header).stop := by
  obtain ⟨ps, hcuts, htokens⟩ := exists_cuts_of_lexed hheader
  rw [htokens] at hends
  obtain ⟨more, hmore⟩ := tokens_append (fun _ => "") hcuts hends hr (by simp) hlex
  show (scanTokens id (lex _).tokens).parameters = (scanTokens id (lex _).tokens).parameters ∧
    (scanTokens id (lex _).tokens).stop = (scanTokens id (lex _).tokens).stop
  rw [htokens, lex, hmore]
  exact scanTokens_append id hends more

theorem append_blank (header body : String) :
    header ++ " " ++ body = header ++ String.ofList (' ' :: body.toList) := by
  apply String.toList_injective
  simp

/-! ## Top theorem (proved from the lemmas above) -/

/-- **What follows a terminator changes nothing.** Behind a text whose last token ends its parameter
list, a blank and any text: there are the same parameters, and the scan stops in the same place. So
two texts that go on in different ways give the same. -/
theorem extract_continuation (id : ObjectId) (header : String)
    (hheader : (lex header).diagnostic = none) (hends : EndsList (lex header).tokens) :
    (∀ body, (lex (header ++ " " ++ body)).diagnostic = none →
      (extract id (header ++ " " ++ body)).parameters = (extract id header).parameters ∧
        (extract id (header ++ " " ++ body)).stop = (extract id header).stop) ∧
    ∀ body₁ body₂, (lex (header ++ " " ++ body₁)).diagnostic = none →
      (lex (header ++ " " ++ body₂)).diagnostic = none →
        extract id (header ++ " " ++ body₁) = extract id (header ++ " " ++ body₂) := by
  have hone : ∀ body, (lex (header ++ " " ++ body)).diagnostic = none →
      (extract id (header ++ " " ++ body)).parameters = (extract id header).parameters ∧
        (extract id (header ++ " " ++ body)).stop = (extract id header).stop := by
    intro body hbody
    rw [append_blank] at hbody ⊢
    refine extract_append id _ hheader hends (fun c hc => ?_) (Or.inl hbody)
    obtain rfl := Option.some.inj hc
    decide
  refine ⟨hone, fun body₁ body₂ h₁ h₂ => ?_⟩
  obtain ⟨hparameters₁, hstop₁⟩ := hone body₁ h₁
  obtain ⟨hparameters₂, hstop₂⟩ := hone body₂ h₂
  calc extract id (header ++ " " ++ body₁)
      = ⟨id, (extract id header).parameters, none, (extract id header).stop⟩ := by
        rw [← hparameters₁, ← hstop₁, ← h₁]
        rfl
    _ = extract id (header ++ " " ++ body₂) := by
        rw [← hparameters₂, ← hstop₂, ← h₂]
        rfl

/-- A procedure's header up to the word `begin`, and two bodies with variables of their own. -/
theorem extract_continuation_sample :
    (extract 1 "create proc p @a int = $1.50 as begin select @b = 'x'").parameters =
        [⟨1, "@a", "$1.50"⟩] ∧
      extract 1 "create proc p @a int = $1.50 as begin select @b = 'x'" =
        extract 1 "create proc p @a int = $1.50 as begin /* @c = 2 */ end" := by
  have hheader : (lex "create proc p @a int = $1.50 as begin").diagnostic = none := by
    decide +kernel
  have hends : EndsList (lex "create proc p @a int = $1.50 as begin").tokens :=
    ⟨⟨.begin, "begin"⟩, by decide +kernel, rfl⟩
  obtain ⟨hone, htwo⟩ := extract_continuation 1 _ hheader hends
  refine ⟨((hone "select @b = 'x'" (by decide +kernel)).1).trans (by decide +kernel), ?_⟩
  exact htwo "select @b = 'x'" "/* @c = 2 */ end" (by decide +kernel) (by decide +kernel)

end RoutineParams
