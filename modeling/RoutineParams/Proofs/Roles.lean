import RoutineParams.Proofs.Declared
import RoutineParams.Proofs.Forms

/-!
# Which pieces have a role

Only a word can end a parameter list or declare a parameter. What ends the list is one of the
openers of a clause or `RETURNS`; what declares a parameter starts with one sign `@` and goes on.

    p.token.role = .terminator → p is a word of "RETURNS" :: openers     (Cuts.of_role_terminator)
    p.token.role = .parameterMarker → p is a name                            (Cuts.of_role_marker)
-/

namespace RoutineParams

/-- A name of a parameter: one sign `@` and at least one more character, which is not that sign. -/
def IsParameterName (text : List Char) : Prop :=
  2 ≤ text.length ∧ ['@'] <+: text ∧ ¬['@', '@'] <+: text

/-! ## Lemmas: kinds -/

theorem role_of_ne_identifier {t : Token} (h : t.kind ≠ .identifier) : t.role = t.kind.role := by
  simp [Token.role, Token.isReturns, h]

theorem isInert_of_kind {t : Token} (hidentifier : t.kind ≠ .identifier)
    (hrole : t.kind.role ≠ .terminator ∧ t.kind.role ≠ .parameterMarker) : t.IsInert := by
  unfold Token.IsInert
  rwa [role_of_ne_identifier hidentifier]

/-- A piece that is no word neither ends the list nor declares anything. -/
theorem isInert_of_tells {p : Piece} {c : Char} {s : List Char} {extra : Nat}
    (htells : p.form.Tells c s extra) (hword : ∀ letters, p.form ≠ .word letters) :
    p.token.IsInert := by
  obtain ⟨form, text⟩ := p
  cases form with
  | word letters => exact absurd rfl (hword letters)
  | sign kind =>
    have hkind : kind.role = .other := htells
    have hidentifier : kind ≠ .identifier := by rintro rfl; cases hkind
    exact isInert_of_kind hidentifier (by simp [Piece.token, Form.kind, hkind])
  | number figures =>
    have hkind : Kind.ofFigures figures ∈ [Kind.integer, .real, .numeric] := by
      unfold Kind.ofFigures
      repeat' split
      all_goals decide
    have hroles : ∀ k ∈ [Kind.integer, .real, .numeric],
        k ≠ .identifier ∧ k.role ≠ .terminator ∧ k.role ≠ .parameterMarker := by decide
    obtain ⟨hidentifier, hrole⟩ := hroles _ hkind
    exact isInert_of_kind hidentifier hrole
  | placeholder name =>
    have hkind : (Form.placeholder name).kind ∈ [Kind.money, .unknown] := by
      unfold Form.kind
      simp only
      split <;> decide
    have hroles : ∀ k ∈ [Kind.money, .unknown],
        k ≠ .identifier ∧ k.role ≠ .terminator ∧ k.role ≠ .parameterMarker := by decide
    obtain ⟨hidentifier, hrole⟩ := hroles _ hkind
    exact isInert_of_kind hidentifier hrole
  | quotedWord | string | nationalString | hex | blank | lineComment | blockComment =>
    exact isInert_of_kind (by simp [Piece.token, Form.kind])
      (by simp [Piece.token, Form.kind, Kind.role])

/-! ## Lemmas: words that start with a sign -/

/-- A word that starts with a number sign is neither the opener of a clause nor a marker. -/
theorem ofWord_hash (t : List Char) : Kind.ofWord ('#' :: t) ∈ [Kind.reserved, .identifier] := by
  have hne : ∀ u : String, u.toList.head? ≠ some '#' →
      String.ofList (('#' :: t).map Char.toUpper) ≠ u := by
    rintro u hu rfl
    exact hu (by rw [String.toList_ofList]; rfl)
  unfold Kind.ofWord
  simp only
  rw [if_neg (hne _ (by decide)), if_neg (hne _ (by decide)), if_neg (hne _ (by decide)),
    if_neg (hne _ (by decide)), if_neg (hne _ (by decide)), if_neg (hne _ (by decide)),
    if_neg (not_or.2 ⟨hne _ (by decide), hne _ (by decide)⟩), if_neg (hne _ (by decide)),
    if_neg (hne _ (by decide)), if_neg (hne _ (by decide))]
  split <;> decide

theorem isReturns_signed {kind : Kind} {c : Char} {t : List Char} (hc : c = '#' ∨ c = '@') :
    (Token.mk kind (String.ofList (c :: t))).isReturns = false := by
  have htext : eqIgnoreCase (String.ofList (c :: t)) "RETURNS" = false := by
    rw [eqIgnoreCase, String.toList_ofList, beq_eq_false_iff_ne]
    intro h
    have hhead := congrArg List.head? h
    rcases hc with rfl | rfl <;> revert hhead <;> simp
  rw [Token.isReturns, htext, Bool.and_false]

/-- A word that starts with a sign declares a parameter just if that is one sign `@`, and never
ends the list. -/
theorem role_signed {c : Char} {t : List Char} (hc : c = '#' ∨ c = '@') :
    (Piece.token ⟨.word (c :: t), c :: t⟩).role ≠ .terminator ∧
      ((Piece.token ⟨.word (c :: t), c :: t⟩).role = .parameterMarker →
        ['@'] <+: c :: t ∧ ¬['@', '@'] <+: c :: t) := by
  rw [Piece.token, Token.role, isReturns_signed hc, if_neg (by simp)]
  simp only [Form.kind]
  rcases hc with rfl | rfl
  · have hkind : Kind.ofLetters ('#' :: t) = .ofWord ('#' :: t) := rfl
    have hroles : ∀ k ∈ [Kind.reserved, .identifier],
        k.role ≠ .terminator ∧ k.role ≠ .parameterMarker := by decide
    obtain ⟨hends, hopens⟩ := hroles _ (ofWord_hash t)
    rw [hkind]
    exact ⟨hends, fun h => absurd h hopens⟩
  · by_cases htwo : ['@', '@'].isPrefixOf ('@' :: t) = true
    · have hkind : Kind.ofLetters ('@' :: t) = .identifier := if_pos htwo
      rw [hkind]
      exact ⟨by decide, fun h => by cases h⟩
    · have hkind : Kind.ofLetters ('@' :: t) = .localVariable := by
        unfold Kind.ofLetters
        rw [if_neg htwo, if_pos (by simp [List.isPrefixOf])]
      rw [hkind]
      refine ⟨by decide, fun _ => ⟨⟨t, rfl⟩, fun h => htwo ?_⟩⟩
      exact List.isPrefixOf_iff_prefix.2 h

/-! ## Lemmas: words -/

/-- What a word that has a role in a parameter list is. -/
theorem word_of_tells {letters : List Char} {c : Char} {t r : List Char}
    (htells : (Form.word letters).Tells c (t ++ r) t.length) :
    letters = c :: t ∧ (∀ d ∈ r.head?, isWordPart d = false) ∧
      ((∃ w : Word, w.letters = c :: t) ∨ (c = '#' ∨ c = '@') ∧ 1 ≤ t.length) := by
  obtain ⟨hletters, hstop, hstart⟩ := htells
  rw [List.take_left] at hletters hstart
  rw [List.drop_left] at hstop
  refine ⟨hletters, hstop, hstart.imp_left ?_⟩
  exact fun h => ⟨⟨c, t, h.1, h.2⟩, rfl⟩

theorem role_word (w : Word) :
    (Piece.token ⟨.word w.letters, w.letters⟩).role = (Written.word w).token.role := by
  rw [Piece.token, Form.kind, Written.ofLetters_word]
  rfl

/-! ## Top theorems (proved from the lemmas above) -/

namespace Cuts

theorem tells {r s : List Char} {ps : List Piece} (h : Cuts r s ps) :
    ∀ p ∈ ps, ∃ c t rest, p.text = c :: t ∧ p.form.Tells c (t ++ rest) t.length := by
  induction h with
  | nil => simp
  | @cons c t s form ps first _ ih =>
    intro p hp
    rcases List.mem_cons.1 hp with rfl | hp
    · exact ⟨c, t, s ++ r, rfl, lexeme_tells first⟩
    · exact ih p hp

/-- A piece that ends the parameter list is the opener of a clause or `RETURNS`. -/
theorem of_role_terminator {r s : List Char} {ps : List Piece} (h : Cuts r s ps) {p : Piece}
    (hp : p ∈ ps) (hrole : p.token.role = .terminator) :
    ∃ w : Word, p = ⟨.word w.letters, w.letters⟩ ∧ w.upper ∈ "RETURNS" :: openers := by
  obtain ⟨c, t, rest, htext, htells⟩ := h.tells p hp
  obtain ⟨form, text⟩ := p
  obtain rfl : text = c :: t := htext
  cases form with
  | word letters =>
    obtain ⟨rfl, -, ⟨w, hw⟩ | ⟨hc, -⟩⟩ := word_of_tells htells
    · refine ⟨w, by rw [hw], w.role_eq_terminator_iff.1 ?_⟩
      rwa [← role_word, hw]
    · exact absurd hrole (role_signed hc).1
  | _ => exact absurd hrole (isInert_of_tells htells (by simp)).1

/-- A piece that declares a parameter is its name. -/
theorem of_role_marker {r s : List Char} {ps : List Piece} (h : Cuts r s ps) {p : Piece}
    (hp : p ∈ ps) (hrole : p.token.role = .parameterMarker) : IsParameterName p.text := by
  obtain ⟨c, t, rest, htext, htells⟩ := h.tells p hp
  obtain ⟨form, text⟩ := p
  obtain rfl : text = c :: t := htext
  cases form with
  | word letters =>
    obtain ⟨rfl, -, ⟨w, hw⟩ | ⟨hc, hlen⟩⟩ := word_of_tells htells
    · rw [← hw, role_word] at hrole
      exact absurd hrole w.role_ne_parameterMarker
    · exact ⟨Nat.succ_le_succ hlen, (role_signed hc).2 hrole⟩
  | _ => exact absurd hrole (isInert_of_tells htells (by simp)).2

end Cuts

end RoutineParams
