import RoutineParams.Proofs.Reading

/-!
# What stands between tokens

Blanks and comments, as data. Comments nest, so a comment is closed when everything that is opened
in it is. The lexer cuts a gap into pieces that say nothing about parameters, and no token goes on
with what a gap starts with.

    r.head? ≠ some '\n' → a gap in front of r is cut into blanks and comments         (cuts_gap)
    startsGap c = true → a.endsAt c = true                             (endsAt_of_startsGap)
-/

namespace RoutineParams

/-! ## What is written -/

/-- A text that closes a comment which is open `depth + 1` times, and ends there. -/
inductive Closes : Nat → List Char → Prop
  | last : Closes 0 ['*', '/']
  | opening {depth : Nat} {s : List Char} :
      Closes (depth + 1) s → Closes depth ('/' :: '*' :: s)
  | closing {depth : Nat} {s : List Char} :
      Closes depth s → Closes (depth + 1) ('*' :: '/' :: s)
  | other {depth : Nat} {c : Char} {s : List Char} :
      ¬(c = '/' ∧ s.head? = some '*') → ¬(c = '*' ∧ s.head? = some '/') →
        Closes depth s → Closes depth (c :: s)

/-- A part of a gap: a blank, a comment to the end of its line, or one that is closed. -/
inductive Filler where
  | blank (c : Char) (isBlank_c : isBlank c = true)
  | lineComment (body : List Char) (newline_not_mem : '\n' ∉ body)
  | blockComment (body : List Char) (closes : Closes 0 body)

/-- A part of a gap as it is written. -/
def Filler.text : Filler → List Char
  | blank c _ => [c]
  | lineComment body _ => '-' :: '-' :: (body ++ ['\n'])
  | blockComment body _ => '/' :: '*' :: body

/-- A gap as it is written. -/
def gapText (gap : List Filler) : List Char := gap.flatMap Filler.text

/-- Whether a lexeme belongs to a gap. -/
def Form.isGap : Form → Bool
  | blank | lineComment | blockComment => true
  | _ => false

/-! ## Lemmas -/

theorem Filler.exists_text (g : Filler) : ∃ c t, g.text = c :: t ∧ startsGap c = true := by
  cases g with
  | blank c h => exact ⟨c, [], rfl, startsGap_of_isBlank h⟩
  | lineComment body _ => exact ⟨'-', _, rfl, by decide⟩
  | blockComment body _ => exact ⟨'/', _, rfl, by decide⟩

theorem gapText_cons (g : Filler) (gap : List Filler) :
    gapText (g :: gap) = g.text ++ gapText gap := by
  simp [gapText]

theorem startsGap_of_head? (gap : List Filler) : ∀ c ∈ (gapText gap).head?, startsGap c = true := by
  cases gap with
  | nil => simp [gapText]
  | cons g gap =>
    obtain ⟨c, t, ht, hc⟩ := g.exists_text
    rw [gapText_cons, ht]
    intro d hd
    obtain rfl := Option.some.inj hd
    exact hc

/-- No token goes on with what a gap starts with. -/
theorem endsAt_of_startsGap (a : Written) {c : Char} (h : startsGap c = true) :
    a.endsAt c = true := by
  have hpart := isWordPart_of_startsGap h
  have hnumeric := isNumeric_of_startsGap h
  have hne : ∀ d, startsGap d = false → c ≠ d := fun d hd => ne_of_class h hd
  have hdigit : c.isDigit = false := by
    cases hd : c.isDigit with
    | false => rfl
    | true =>
      rw [isWordPart_of_isDigit hd] at hpart
      cases hpart
  match a with
  | .word w => simp [Written.endsAt, hpart, hne '\'' (by decide)]
  | .localVariable v => simp [Written.endsAt, hpart]
  | .bracketed _ => simp [Written.endsAt, hne ']' (by decide)]
  | .literal (.numeral _) | .literal (.cents _ _) =>
    simp [Written.endsAt, hpart, hne '.' (by decide)]
  | .literal (.string _) | .literal (.national _) => simp [Written.endsAt, hne '\'' (by decide)]
  | .literal (.hex _ _) => simp [Written.endsAt, isHexDigit_of_startsGap h]
  | .literal (.null _) => simp [Written.endsAt, hpart, hne '\'' (by decide)]
  | .literal (.money _) => simp [Written.endsAt, hpart, hnumeric, hne '.' (by decide)]
  | .equals => simp [Written.endsAt, hne '=' (by decide), hne '>' (by decide)]
  | .dot => simp [Written.endsAt, hdigit]
  | .leftParen | .rightParen | .comma => rfl

theorem Closes.ne_nil {depth : Nat} {s : List Char} (h : Closes depth s) : s ≠ [] := by
  cases h <;> simp

theorem countToCommentEnd_closes {depth : Nat} {s : List Char} (h : Closes depth s) (n : Nat)
    (r : List Char) : countToCommentEnd depth n (s ++ r) = some (n + s.length) := by
  induction h generalizing n with
  | last => simp [countToCommentEnd]
  | opening _ ih =>
    simp only [List.cons_append, countToCommentEnd, and_self, if_true, ih, List.length_cons]
    congr 1
    omega
  | closing _ ih =>
    simp only [List.cons_append, countToCommentEnd, and_self, if_true, ih, List.length_cons]
    rw [if_neg (by simp)]
    congr 1
    omega
  | @other depth c s hopen hclose hs ih =>
    cases s with
    | nil => exact absurd rfl hs.ne_nil
    | cons d s =>
      have := ih (n + 1)
      rw [List.head?_cons, Option.some.injEq] at hopen hclose
      rw [List.cons_append] at this
      simp only [List.cons_append, countToCommentEnd, if_neg hopen, if_neg hclose, this,
        List.length_cons]
      congr 1
      omega

theorem lexeme_blank {c : Char} {s : List Char} (hc : isBlank c = true)
    (h : ¬(c = '\r' ∧ s.head? = some '\n')) : lexeme c s = .ok ⟨.blank, 0⟩ := by
  by_cases hr : c = '\r'
  · exact lexeme_eq_iff.2 (.lineBreak hr (by rw [if_neg fun hs => h ⟨hr, hs⟩]))
  · exact lexeme_eq_iff.2 (.blank hc hr rfl)

theorem lexeme_lineComment (body r : List Char) (hbody : '\n' ∉ body) :
    lexeme '-' ('-' :: (body ++ ['\n']) ++ r) =
      .ok ⟨.lineComment, ('-' :: (body ++ ['\n'])).length⟩ := by
  have hcount : countWhile (· != '\n') ('-' :: (body ++ '\n' :: r)) = ('-' :: body).length := by
    rw [← List.cons_append]
    refine countWhile_append_stop (fun c hc => ?_) (by simp)
    rcases List.mem_cons.1 hc with rfl | hc
    · decide
    · simpa using fun h : c = '\n' => hbody (h ▸ hc)
  have hs : '-' :: (body ++ ['\n']) ++ r = '-' :: (body ++ '\n' :: r) := by simp
  rw [hs]
  exact lexeme_eq_iff.2 (.lineComment rfl rfl (by simp [hcount]))

theorem lexeme_blockComment (body r : List Char) (hbody : Closes 0 body) :
    lexeme '/' ('*' :: body ++ r) = .ok ⟨.blockComment, ('*' :: body).length⟩ := by
  refine lexeme_eq_iff.2 (.blockComment rfl rfl (countToCommentEnd_closes hbody 1 r) ?_)
  rw [List.length_cons, Nat.add_comm]

/-! ## Top theorem (proved from the lemmas above) -/

/-- A gap is cut into blanks and comments, unless its last carriage return belongs to a line feed
after it. -/
theorem cuts_gap (gap : List Filler) (r : List Char) (hr : r.head? ≠ some '\n') :
    ∃ ps, Cuts r (gapText gap) ps ∧ ∀ p ∈ ps, p.form.isGap = true := by
  induction gap with
  | nil => exact ⟨[], .nil, by simp⟩
  | cons g gap ih =>
    obtain ⟨ps, hps, hgap⟩ := ih
    -- the first part is a piece of its own
    have hfirst : ∀ {c t form}, lexeme c (t ++ (gapText gap ++ r)) = .ok ⟨form, t.length⟩ →
        form.isGap = true →
        ∃ ps, Cuts r (c :: t ++ gapText gap) ps ∧ ∀ p ∈ ps, p.form.isGap = true := by
      intro c t form hlexeme hform
      refine ⟨_, .cons hlexeme hps, fun p hp => ?_⟩
      rcases List.mem_cons.1 hp with rfl | hp
      · exact hform
      · exact hgap p hp
    rw [gapText_cons]
    cases g with
    | lineComment body hbody => exact hfirst (lexeme_lineComment body _ hbody) rfl
    | blockComment body hbody => exact hfirst (lexeme_blockComment body _ hbody) rfl
    | blank c hc =>
      by_cases hpair : c = '\r' ∧ (gapText gap ++ r).head? = some '\n'
      · -- the line feed is the first piece of the rest, and both make one piece
        obtain ⟨rfl, hhead⟩ := hpair
        obtain ⟨t, ht⟩ : ∃ t, gapText gap = '\n' :: t := by
          cases hg : gapText gap with
          | nil =>
            rw [hg] at hhead
            exact absurd hhead hr
          | cons d t =>
            rw [hg, List.cons_append, List.head?_cons, Option.some.injEq] at hhead
            exact ⟨t, by rw [hhead]⟩
        rw [ht] at hps ⊢
        obtain ⟨qs, rfl, hqs⟩ := Cuts.split (a := ['\n'])
          (Cuts.single (t := []) (lexeme_blank (by decide) (by simp))) hps
        have hlexeme : lexeme '\r' (['\n'] ++ (t ++ r)) = .ok ⟨.blank, ['\n'].length⟩ := rfl
        have hcuts := Cuts.cons hlexeme hqs
        refine ⟨_, hcuts, fun p hp => ?_⟩
        rcases List.mem_cons.1 hp with rfl | hp
        · rfl
        · exact hgap p (List.mem_append_right _ hp)
      · exact hfirst (t := []) (lexeme_blank hc hpair) rfl

end RoutineParams
