import RoutineParams.Proofs.Characters
import RoutineParams.Proofs.Lookahead
import RoutineParams.Token

/-!
# What a form tells

The form of a lexeme against its characters. An unquoted word has the characters that its form
says, and it goes on as far as it can; a sign has no meaning in a parameter list but that of `=`.
What has a role there that ends or opens something is therefore a word.

    lexeme c s = .ok l → l.form.Tells c s l.extra                                  (lexeme_tells)
-/

namespace RoutineParams

/-- What the form of a lexeme tells of its first character, the text after it and how many of that
text's characters belong to the lexeme. -/
def Form.Tells (c : Char) (s : List Char) (extra : Nat) : Form → Prop
  | .word letters =>
    letters = c :: s.take extra ∧ (∀ d ∈ (s.drop extra).head?, isWordPart d = false) ∧
      (isLetter c = true ∧ (∀ d ∈ s.take extra, isWordPart d = true) ∨
        (c = '#' ∨ c = '@') ∧ 1 ≤ extra)
  | .sign kind => kind.role = .other
  | _ => True

/-! ## Lemmas -/

theorem take_countWhile (p : Char → Bool) (s : List Char) :
    s.take (countWhile p s) = s.takeWhile p :=
  (List.prefix_iff_eq_take.1 (List.takeWhile_prefix p)).symm

theorem head?_drop_countWhile (p : Char → Bool) (s : List Char) :
    ∀ d ∈ (s.drop (countWhile p s)).head?, p d = false := by
  intro d hd
  have hs : s.drop (countWhile p s) = s.dropWhile p := by
    rw [← List.append_cancel_left_eq (s.takeWhile p), List.takeWhile_append_dropWhile,
      ← take_countWhile, List.take_append_drop]
  rw [hs, Option.mem_def] at hd
  cases hp : p d with
  | false => rfl
  | true =>
    have := List.head?_dropWhile_not p s
    rw [hd] at this
    simp [hp] at this

/-- The letters of a word that goes on after some first characters. -/
theorem tells_word_append (c : Char) (a s : List Char) (h : (c = '#' ∨ c = '@') ∧ a ≠ []) :
    (Form.word (c :: (a ++ s.takeWhile isWordPart))).Tells c (a ++ s)
      (a.length + countWhile isWordPart s) := by
  have hpos := List.length_pos_iff.2 h.2
  refine ⟨?_, ?_, Or.inr ⟨h.1, by omega⟩⟩
  · rw [List.take_length_add_append, take_countWhile]
  · rw [List.drop_length_add_append]
    exact head?_drop_countWhile isWordPart s

theorem tells_hashLexeme (s : List Char) :
    (hashLexeme s).form.Tells '#' s (hashLexeme s).extra := by
  cases s with
  | nil => exact rfl
  | cons d s =>
    unfold hashLexeme
    simp only
    repeat' split
    all_goals first | exact rfl | exact tells_word_append '#' [d] s (by simp)

theorem tells_atLexeme (s : List Char) : (atLexeme s).form.Tells '@' s (atLexeme s).extra := by
  cases s with
  | nil => exact rfl
  | cons d s =>
    unfold atLexeme
    simp only
    split
    · exact rfl
    split
    · exact rfl
    split
    · next hd =>
      obtain rfl := hd
      cases s with
      | nil => exact rfl
      | cons e s =>
        simp only
        split
        · exact rfl
        · exact tells_word_append '@' ['@', e] s (by simp)
    · exact tells_word_append '@' [d] s (by simp)

theorem tells_quoted {c : Char} {r s : List Char} {form : Form} {fault : LexFault}
    {escape : Option Char} {close : Char} {before : Nat} {l : Lexeme}
    (h : quoted form fault escape close before r = .ok l) (hform : ∀ extra, form.Tells c s extra) :
    l.form.Tells c s l.extra := by
  unfold quoted at h
  split at h
  · obtain rfl := Except.ok.inj h
    exact hform _
  · cases h

theorem tells_numberLexeme (c : Char) (s u : List Char) :
    (numberLexeme u).form.Tells c s (numberLexeme u).extra := by
  rw [numberLexeme_eq]
  split
  · trivial
  · split
    · exact rfl
    · trivial

theorem tells_dollarLexeme {c : Char} {s r : List Char} {l : Lexeme}
    (h : dollarLexeme r = .ok l) : l.form.Tells c s l.extra := by
  unfold dollarLexeme at h
  simp only at h
  split at h
  · split at h
    · obtain rfl := Except.ok.inj h
      exact rfl
    · cases h
  · obtain rfl := Except.ok.inj h
    trivial

theorem role_of_mem_signs : ∀ sign ∈ signs, sign.2.role = .other := by decide

theorem tells_sign (c : Char) (s u : List Char) :
    ((signLexeme? u).getD ⟨.sign .unknown, 0⟩).form.Tells c s
      ((signLexeme? u).getD ⟨.sign .unknown, 0⟩).extra := by
  unfold signLexeme?
  cases hfind : signs.find? fun sign => sign.1.isPrefixOf u with
  | none => exact rfl
  | some sign => exact role_of_mem_signs sign (List.mem_of_find?_eq_some hfind)

/-! ## Top theorem (proved from the lemmas above) -/

/-- **The form of a lexeme tells what it is.** -/
theorem lexeme_tells {c : Char} {s : List Char} {l : Lexeme} (h : lexeme c s = .ok l) :
    l.form.Tells c s l.extra := by
  cases lexeme_eq_iff.1 h with
  | lineBreak _ hr | blank _ _ hr | lineComment _ _ hr | blockComment _ _ _ hr =>
    obtain rfl := Except.ok.inj hr
    trivial
  | national _ _ hr | hexadecimal _ _ hr | string _ hr | doubleQuoted _ hr | bracketed _ hr =>
    exact tells_quoted hr fun _ => trivial
  | number _ hr =>
    obtain rfl := Except.ok.inj hr
    exact tells_numberLexeme c s (c :: s)
  | openComment _ _ _ hr => cases hr
  | numberSign hc hr =>
    obtain rfl := Except.ok.inj hr
    rw [hc]
    exact tells_hashLexeme s
  | atSign hc hr =>
    obtain rfl := Except.ok.inj hr
    rw [hc]
    exact tells_atLexeme s
  | dollarSign _ hr => exact tells_dollarLexeme hr
  | questionMark _ hr =>
    obtain rfl := Except.ok.inj hr
    exact rfl
  | word hc _ hr =>
    obtain rfl := Except.ok.inj hr
    refine ⟨by rw [take_countWhile], head?_drop_countWhile isWordPart s, Or.inl ⟨hc, ?_⟩⟩
    rw [take_countWhile]
    exact List.all_eq_true.1 List.all_takeWhile
  | sign _ _ _ _ _ _ hr =>
    obtain rfl := Except.ok.inj hr
    exact tells_sign c s (c :: s)

end RoutineParams
