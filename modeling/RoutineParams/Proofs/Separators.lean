import RoutineParams.Proofs.Crossings
import RoutineParams.Proofs.Texts
import RoutineParams.Proofs.Unfinished

/-!
# Pieces at a separator

A script is cut into pieces whatever its lines are. Its first separator is cut off on its own, or
follows a sign that is a word without it, or it stands inside a piece which a mark closes; then the
text before the separator ends in the middle of that piece and has no end.

    a separator in front of b is cut into blanks, its word and blanks              (SeparatorLine.cuts)
    Cuts [] (a ++ (line ++ b)) ps → ps is cut at the separator line in one of three ways
                                                                                 (Cuts.at_separator)
-/

namespace RoutineParams

/-! ## Definitions -/

/-- A character that may stand in a separator. -/
def inSeparator (c : Char) : Bool := isBlank c || c.toUpper == 'G' || c.toUpper == 'O'

/-- The word of a separator, in any case. -/
def separatorWords : List (List Char) := [['G', 'O'], ['G', 'o'], ['g', 'O'], ['g', 'o']]

/-- A line that is a separator: its word, and blanks around it that stand apart from what follows
the line. -/
structure SeparatorLine (line b : List Char) where
  before : List Char
  word : Word
  after : List Char
  line_eq : line = before ++ (word.letters ++ after)
  letters_mem : word.letters ∈ separatorWords
  blank_before : isAllBlank before = true
  blank_after : isAllBlank after = true
  ends_word : ∀ d ∈ (after ++ b).head?, isWordPart d = false
  ends_line : after.getLast? = some '\r' → b.head? ≠ some '\n'

variable {a b r s t u line : List Char} {c : Char} {ps : List Piece}

theorem inSeparator_of_mem (h : isSeparator line = true) (hc : c ∈ line) : inSeparator c = true := by
  obtain ⟨x, y, hline, hx, hy⟩ := exists_trimBlank line
  have hupper : (trimBlank line).map Char.toUpper = ['G', 'O'] := by simpa [isSeparator] using h
  rw [hline] at hc
  simp only [List.mem_append] at hc
  rcases hc with hc | hc | hc
  · simp [inSeparator, List.all_eq_true.1 hx c hc]
  · have hmem := List.mem_map_of_mem (f := Char.toUpper) hc
    rw [hupper] at hmem
    simp only [List.mem_cons, List.not_mem_nil, or_false] at hmem
    rcases hmem with hmem | hmem <;> simp [inSeparator, hmem]
  · simp [inSeparator, List.all_eq_true.1 hy c hc]

theorem mem_of_toUpper (h : c.toUpper = 'G' ∨ c.toUpper = 'O') : c ∈ ['G', 'g', 'O', 'o'] := by
  rcases h with h | h <;> rcases eq_or_eq_of_toUpper h with rfl | rfl <;> decide

/-- The letters of a separator. -/
theorem isLetter_of_toUpper (h : c.toUpper = 'G' ∨ c.toUpper = 'O') :
    isLetter c = true ∧ c ∉ ['N', 'n', 'X', 'x'] := by
  have hmem := mem_of_toUpper h
  simp only [List.mem_cons, List.not_mem_nil, or_false] at hmem
  rcases hmem with rfl | rfl | rfl | rfl <;> decide

theorem isEnclosed_word (letters : List Char) : (Form.word letters).kind.isEnclosed = false := by
  simp only [Form.kind, Kind.ofLetters, Kind.ofWord, apply_ite Kind.isEnclosed]
  simp only [Kind.isEnclosed, ite_self]

/-- An enclosed lexeme does not begin as a separator does. -/
theorem isEnclosed_of_inSeparator {l : Lexeme} (hc : inSeparator c = true)
    (h : lexeme c s = .ok l) : l.form.kind.isEnclosed = false := by
  by_cases hblank : isBlank c = true
  · by_cases hreturn : c = '\r'
    · rw [lexeme_eq_iff.2 (.lineBreak hreturn rfl)] at h
      obtain rfl := Except.ok.inj h
      rfl
    · rw [lexeme_eq_iff.2 (.blank hblank hreturn rfl)] at h
      obtain rfl := Except.ok.inj h
      rfl
  · have hupper : c.toUpper = 'G' ∨ c.toUpper = 'O' := by
      simpa [inSeparator, hblank] using hc
    obtain ⟨hletter, hno⟩ := isLetter_of_toUpper hupper
    rw [lexeme_letter hletter fun hmem => absurd hmem hno] at h
    obtain rfl := Except.ok.inj h
    exact isEnclosed_word _

theorem inSeparator_of_mem_closers (h : c ∈ closers) : inSeparator c = false := by
  have hall : closers.all (!inSeparator ·) = true := by decide
  simpa using List.all_eq_true.1 hall c h

/-! ## Lemmas: pieces within a text -/

/-- A mark that closes a lexeme stands behind a separator in it, which then is a whole line. -/
theorem exists_after_separator {y : List Char} {d : Char} (hd : d ∈ closers)
    (hsep : isSeparator line = true) (hu : u.getLast? = some d) (h : u ++ y = line ++ b) :
    ∃ v, v ≠ [] ∧ u = line ++ v ∧ b = v ++ y := by
  have hmem : d ∉ line := by
    intro hmem
    have := inSeparator_of_mem hsep hmem
    rw [inSeparator_of_mem_closers hd] at this
    cases this
  rcases List.append_eq_append_iff.1 h with ⟨v, rfl, -⟩ | ⟨v, rfl, rfl⟩
  · exact absurd (List.mem_append_left v (List.mem_of_getLast? hu)) hmem
  · refine ⟨v, ?_, rfl, rfl⟩
    rintro rfl
    rw [List.append_nil] at hu
    exact hmem (List.mem_of_getLast? hu)

/-- What is cut off a text without separators holds none, but in words. -/
theorem Cuts.holdsNoSeparator {x : List Char} (h : Cuts r a ps) (ha : HoldsNoSeparator (a ++ x)) :
    ∀ p ∈ ps, p.form.kind.isEnclosed = true → HoldsNoSeparator p.text := by
  intro p hp henclosed
  obtain ⟨qs, rs, rfl⟩ := List.append_of_mem hp
  obtain ⟨a₁, a₂, rfl, -, h₂⟩ := h.exists_append
  cases h₂ with
  | @cons c t s form _ first _ =>
    refine Classical.byContradiction fun hholds => ?_
    obtain ⟨v, line, b, htext, hv, -, hline, hsep⟩ := exists_first_separator hholds
    cases v with
    | nil =>
      -- the piece would begin with a separator
      have hc : c ∈ line := by
        cases line with
        | nil => cases hsep
        | cons d line =>
          rw [(List.cons.inj htext).1]
          exact List.mem_cons_self
      rw [isEnclosed_of_inSeparator (inSeparator_of_mem hsep hc) first] at henclosed
      cases henclosed
    | cons _ t₁ =>
      obtain rfl : c = _ := (List.cons.inj htext).1
      obtain rfl : t = t₁ ++ (line ++ b) := (List.cons.inj htext).2
      have hne : line ++ b ≠ [] := by
        intro hnil
        rw [(List.append_eq_nil_iff.1 hnil).1] at hsep
        cases hsep
      have hcrosses := crosses_of_lexeme (t := t₁) (u := line ++ b) (r := s ++ r)
        (by simpa only [List.append_assoc] using first) rfl hv hne
      cases hcrosses with
      | enclosed _ _ _ hlast hd =>
        obtain ⟨v, hvne, -, hb⟩ := exists_after_separator hd hsep hlast (List.append_nil _)
        rw [List.append_nil] at hb
        have hwhole := isLine_of_linesOf hline (hb ▸ hvne)
        have hno := not_holdsNoSeparator (hv.append_left a₁) (hwhole.linesOf_append (b ++ (s ++ x)))
          hsep
        exact hno (by simpa only [List.append_assoc, List.cons_append] using ha)
      | word _ _ _ =>
        rw [isEnclosed_word] at henclosed
        cases henclosed

/-- Blanks are cut into blanks, unless their last carriage return belongs to a newline after
them. -/
theorem cuts_blanks {x : List Char} (hx : isAllBlank x = true)
    (hr : x.getLast? = some '\r' → r.head? ≠ some '\n') :
    ∃ ps, Cuts r x ps ∧ ∀ p ∈ ps, p.form = .blank := by
  induction hn : x.length using Nat.strongRecOn generalizing x with
  | ind n ih =>
    cases x with
    | nil => exact ⟨[], .nil, by simp⟩
    | cons c x =>
      subst hn
      rw [isAllBlank_cons, Bool.and_eq_true] at hx
      by_cases hboth : c = '\r' ∧ (x ++ r).head? = some '\n'
      · -- a carriage return and its newline are one piece
        obtain ⟨rfl, hhead⟩ := hboth
        cases x with
        | nil => exact absurd hhead (hr rfl)
        | cons d x =>
          obtain rfl : d = '\n' := Option.some.inj hhead
          have hrest := hx.2
          rw [isAllBlank_cons, Bool.and_eq_true] at hrest
          obtain ⟨ps, hps, hforms⟩ := ih x.length (by simp only [List.length_cons]; omega)
            hrest.2 (fun hlast => hr (by simp [List.getLast?_cons, hlast])) rfl
          have hfirst : lexeme '\r' (['\n'] ++ (x ++ r)) = .ok ⟨.blank, ['\n'].length⟩ := rfl
          exact ⟨_, .cons hfirst hps, List.forall_mem_cons.2 ⟨rfl, hforms⟩⟩
      · obtain ⟨ps, hps, hforms⟩ := ih x.length (by simp only [List.length_cons]; omega) hx.2
          (fun hlast => hr (by simp [List.getLast?_cons, hlast])) rfl
        have hfirst : lexeme c ([] ++ (x ++ r)) = .ok ⟨.blank, ([] : List Char).length⟩ :=
          lexeme_blank hx.1 hboth
        exact ⟨_, .cons hfirst hps, List.forall_mem_cons.2 ⟨rfl, hforms⟩⟩

namespace SeparatorLine

/-- The word of a separator and the blanks after it. -/
theorem cuts_word_after (h : SeparatorLine line b) :
    Cuts (h.after ++ b) h.word.letters [⟨.word h.word.letters, h.word.letters⟩] := by
  refine cuts_word h.word _ fun c hc => Word.endsAt_of_upper ?_ (h.ends_word c hc)
  have htwo : ∀ w ∈ separatorWords, 2 ≤ w.length := by decide
  rw [Word.upper, String.length_ofList, List.length_map]
  exact htwo _ h.letters_mem

/-- A separator is cut off on its own. -/
theorem cuts (h : SeparatorLine line b) :
    ∃ xs ys, Cuts b line (xs ++ ⟨.word h.word.letters, h.word.letters⟩ :: ys) ∧
      (∀ p ∈ xs, p.form = .blank) ∧ ∀ p ∈ ys, p.form = .blank := by
  obtain ⟨xs, hxs, hblank⟩ := cuts_blanks (x := h.before) (r := h.word.letters ++ h.after ++ b)
    h.blank_before fun _ hhead => by
      have hfirst : h.word.first = '\n' := Option.some.inj hhead
      have hletter := h.word.isLetter_first
      rw [hfirst] at hletter
      cases hletter
  obtain ⟨ys, hys, hafter⟩ := cuts_blanks h.blank_after h.ends_line
  have hcuts := hxs.append (h.cuts_word_after.append hys)
  rw [← h.line_eq] at hcuts
  exact ⟨xs, ys, hcuts, hblank, hafter⟩

end SeparatorLine

end RoutineParams
