import RoutineParams.Lexing
import RoutineParams.Proofs.Extent
import RoutineParams.Proofs.Places

/-!
# The pieces of a text

`Cuts r s ps` says that in front of the text `r` the lexer cuts `s` into the pieces `ps`. What is
true of the pieces is true of the tokens: their places lead back to their characters, so `lex`
makes its tokens of pieces, and no token is written as anything but its characters.

    Cuts (b ++ r) a ps → Cuts r b qs → Cuts r (a ++ b) (ps ++ qs)                 (Cuts.append)
    Cuts [] source ps → lexShowing shown source = ⟨joinAmounts ps, none⟩   (lexShowing_of_cuts)
    the tokens of any text are those of pieces of its start                  (lexShowing_start)
-/

namespace RoutineParams

/-- A lexeme with its characters. -/
structure Piece where
  form : Form
  text : List Char
deriving DecidableEq, Repr

/-- In front of `r`, the text `s` is cut into the pieces `ps`. -/
inductive Cuts (r : List Char) : List Char → List Piece → Prop
  | nil : Cuts r [] []
  | cons {c : Char} {t s : List Char} {form : Form} {ps : List Piece} :
      lexeme c (t ++ (s ++ r)) = .ok ⟨form, t.length⟩ → Cuts r s ps →
        Cuts r (c :: (t ++ s)) (⟨form, c :: t⟩ :: ps)

/-- The token of a piece. -/
def Piece.token (p : Piece) : Token := ⟨p.form.kind, String.ofList p.text⟩

/-- Whether `b` is the fraction of the amount of money `a`, if it follows at once. -/
def Piece.isFractionOf (b a : Piece) : Bool := a.form.isMoney && b.form.isFraction

/-- The tokens of pieces: an amount of money and its fraction make one. -/
def joinAmounts : List Piece → List Token
  | [] => []
  | [a] => [a.token]
  | a :: b :: ps =>
    if b.isFractionOf a then ⟨.money, String.ofList (a.text ++ b.text)⟩ :: joinAmounts ps
    else a.token :: joinAmounts (b :: ps)

/-- The characters of pieces. -/
def textOf (ps : List Piece) : List Char := ps.flatMap Piece.text

/-- The places of pieces that follow the text `a`. -/
def placesAfter (a : List Char) : List Piece → List Placed
  | [] => []
  | p :: ps => ⟨p.form, .after a, .after (a ++ p.text)⟩ :: placesAfter (a ++ p.text) ps

/-! ## Lemmas: cutting -/

theorem textOf_cons (p : Piece) (ps : List Piece) : textOf (p :: ps) = p.text ++ textOf ps := by
  simp [textOf]

namespace Cuts

theorem textOf_eq {r s : List Char} {ps : List Piece} (h : Cuts r s ps) : textOf ps = s := by
  induction h with
  | nil => rfl
  | cons _ _ ih => rw [textOf_cons, ih, List.cons_append]

theorem text_ne_nil {r s : List Char} {ps : List Piece} (h : Cuts r s ps) :
    ∀ p ∈ ps, p.text ≠ [] := by
  induction h with
  | nil => simp
  | cons _ _ ih =>
    intro p hp
    rcases List.mem_cons.1 hp with rfl | hp
    · simp
    · exact ih p hp

/-- Texts that are cut one before the other are cut together. -/
theorem append {r a b : List Char} {ps qs : List Piece} (ha : Cuts (b ++ r) a ps)
    (hb : Cuts r b qs) : Cuts r (a ++ b) (ps ++ qs) := by
  induction ha with
  | nil => exact hb
  | @cons c t s form ps first _ ih =>
    rw [List.cons_append, List.append_assoc]
    refine .cons ?_ ih
    rw [List.append_assoc]
    exact first

/-- A text is cut in one way: what the lexer cuts off its start it cuts off first. -/
theorem split {r a b : List Char} {ps qs : List Piece} (ha : Cuts (b ++ r) a ps)
    (h : Cuts r (a ++ b) qs) : ∃ rest, qs = ps ++ rest ∧ Cuts r b rest := by
  induction ha generalizing qs with
  | nil => exact ⟨qs, rfl, h⟩
  | @cons c t s form ps first _ ih =>
    rw [List.cons_append, List.append_assoc] at h
    generalize hs : c :: (t ++ (s ++ b)) = whole at h
    cases h with
    | nil => cases hs
    | @cons c' t' s' form' qs' first' h' =>
      obtain ⟨rfl, htail⟩ := List.cons.inj hs
      have hlexeme : lexeme c (t ++ (s ++ (b ++ r))) = .ok ⟨form', t'.length⟩ := by
        rw [← first', ← List.append_assoc t', ← htail]
        simp only [List.append_assoc]
      obtain ⟨rfl, hlength⟩ := Lexeme.mk.inj (Except.ok.inj (first.symm.trans hlexeme))
      obtain ⟨rfl, rfl⟩ := List.append_inj htail hlength
      obtain ⟨rest, rfl, hrest⟩ := ih h'
      exact ⟨rest, rfl, hrest⟩

/-- One lexeme in front of `r`. -/
theorem single {r t : List Char} {c : Char} {form : Form}
    (h : lexeme c (t ++ r) = .ok ⟨form, t.length⟩) : Cuts r (c :: t) [⟨form, c :: t⟩] := by
  have := Cuts.cons (r := r) (t := t) (s := []) h .nil
  rwa [List.append_nil] at this

end Cuts

/-- The lexer cuts what is cut in front of `r` and goes on with `r`. -/
theorem placeFrom_of_cuts {r s : List Char} {ps : List Piece} (h : Cuts r s ps) (a : List Char)
    (done : List Placed) :
    placeFrom (.after a) done (s ++ r) =
      placeFrom (.after (a ++ s)) ((placesAfter a ps).reverse ++ done) r := by
  induction h generalizing a done with
  | nil => simp [placesAfter]
  | @cons c t s form ps first _ ih =>
    have htake : (t ++ (s ++ r)).take t.length = t := List.take_left
    have hdrop : (t ++ (s ++ r)).drop t.length = s ++ r := List.drop_left
    rw [List.cons_append, List.append_assoc, placeFrom, first]
    simp only [htake, hdrop]
    rw [← after_append a (c :: t), ih]
    simp [placesAfter]

/-- A text is cut into pieces up to its end, or up to a lexeme that fails. -/
theorem Cuts.exists_or_fails (s : List Char) :
    (∃ ps, Cuts [] s ps) ∨
      ∃ u c t ps f, s = u ++ c :: t ∧ Cuts (c :: t) u ps ∧ lexeme c t = .error f := by
  induction hn : s.length using Nat.strongRecOn generalizing s with
  | ind n ih =>
    cases s with
    | nil => exact Or.inl ⟨[], .nil⟩
    | cons c s =>
      cases hl : lexeme c s with
      | error f => exact Or.inr ⟨[], c, s, [], f, rfl, .nil, hl⟩
      | ok l =>
        have hlength : (s.take l.extra).length = l.extra := by
          rw [List.length_take, Nat.min_eq_left (lexeme_extra_le hl)]
        -- the first lexeme, with the rest of the text in two parts
        have hfirst : ∀ {u r}, s.drop l.extra = u ++ r →
            lexeme c (s.take l.extra ++ (u ++ r)) = .ok ⟨l.form, (s.take l.extra).length⟩ := by
          intro u r hrest
          rw [← hrest, List.take_append_drop, hl, hlength]
        have hshorter : (s.drop l.extra).length < n := by
          rw [List.length_cons] at hn
          rw [List.length_drop]
          omega
        rcases ih _ hshorter (s.drop l.extra) rfl with ⟨ps, hps⟩ | ⟨u, e, t, ps, f, hs, hcuts, hf⟩
        · have hcut := Cuts.cons (hfirst (List.append_nil _).symm) hps
          rw [List.take_append_drop] at hcut
          exact Or.inl ⟨_, hcut⟩
        · refine Or.inr ⟨c :: (s.take l.extra ++ u), e, t, _, f, ?_, .cons (hfirst hs) hcuts, hf⟩
          rw [List.cons_append, List.append_assoc, ← hs, List.take_append_drop]

/-- The lexer fails where a lexeme fails behind what it cuts off. -/
theorem placeFrom_of_fails {u t : List Char} {c : Char} {ps : List Piece} {f : LexFailure}
    (hcuts : Cuts (c :: t) u ps) (hf : lexeme c t = .error f) (a : List Char)
    (done : List Placed) :
    placeFrom (.after a) done (u ++ c :: t) =
      .error ⟨f.fault, .after (a ++ (u ++ (c :: t).take f.offset))⟩ := by
  rw [placeFrom_of_cuts hcuts, placeFrom, hf, ← List.append_assoc, after_append (a ++ u)]

/-- Where the lexer does not fail, it has cut the text into pieces. -/
theorem exists_cuts_of_place {s : List Char} {placed : List Placed} (h : place s = .ok placed) :
    ∃ ps, Cuts [] s ps := by
  rcases Cuts.exists_or_fails s with hcuts | ⟨u, c, t, ps, f, rfl, hcuts, hf⟩
  · exact hcuts
  · have hfails := placeFrom_of_fails hcuts hf [] []
    cases h.symm.trans hfails

/-- The lexeme at which the lexer fails, and the pieces before it. -/
theorem exists_lexeme_of_placeFrom_error {s a : List Char} {done : List Placed} {d : Diagnostic}
    (h : placeFrom (.after a) done s = .error d) :
    ∃ u c t ps f, s = u ++ c :: t ∧ Cuts (c :: t) u ps ∧ lexeme c t = .error f ∧
      d = ⟨f.fault, .after (a ++ (u ++ (c :: t).take f.offset))⟩ := by
  rcases Cuts.exists_or_fails s with ⟨ps, hcuts⟩ | ⟨u, c, t, ps, f, rfl, hcuts, hf⟩
  · have hplaced := placeFrom_of_cuts hcuts a done
    rw [List.append_nil, placeFrom, h] at hplaced
    cases hplaced
  · rw [placeFrom_of_fails hcuts hf] at h
    exact ⟨u, c, t, ps, f, rfl, hcuts, hf, (Except.error.inj h).symm⟩

/-- Where the lexer fails, it reports a position within the text. -/
theorem position_of_placeFrom_error {s a : List Char} {done : List Placed} {d : Diagnostic}
    (h : placeFrom (.after a) done s = .error d) :
    ∃ b c, s = b ++ c ∧ d.position = .after (a ++ b) := by
  obtain ⟨u, c, t, -, f, rfl, -, -, rfl⟩ := exists_lexeme_of_placeFrom_error h
  refine ⟨u ++ (c :: t).take f.offset, (c :: t).drop f.offset, ?_, rfl⟩
  rw [List.append_assoc, List.take_append_drop]

/-! ## Lemmas: tokens -/

theorem joinAmounts_cons {p : Piece} {ps : List Piece}
    (h : ∀ q ∈ ps.head?, q.isFractionOf p = false) :
    joinAmounts (p :: ps) = p.token :: joinAmounts ps := by
  cases ps with
  | nil => rfl
  | cons q ps => rw [joinAmounts, if_neg (by simp [h q rfl])]

/-- Pieces of which no two join make their tokens apart. -/
theorem joinAmounts_append {ps qs : List Piece}
    (h : ∀ p ∈ ps.getLast?, ∀ q ∈ qs.head?, q.isFractionOf p = false) :
    joinAmounts (ps ++ qs) = joinAmounts ps ++ joinAmounts qs := by
  fun_induction joinAmounts ps with
  | case1 => rfl
  | case2 a => exact joinAmounts_cons (h a rfl)
  | case3 a b ps hfraction ih =>
    rw [List.cons_append, List.cons_append, joinAmounts, if_pos hfraction, List.cons_append, ih]
    intro p hp
    refine h p ?_
    simp only [List.getLast?_cons, Option.mem_def] at hp ⊢
    simp [hp]
  | case4 a b ps hfraction ih =>
    rw [List.cons_append, List.cons_append, joinAmounts, if_neg hfraction, List.cons_append,
      ← List.cons_append, ih]
    intro p hp
    exact h p (by rwa [List.getLast?_cons_cons])

/-- No token is empty. -/
theorem text_ne_empty_of_mem_joinAmounts (ps : List Piece) (hne : ∀ p ∈ ps, p.text ≠ []) :
    ∀ t ∈ joinAmounts ps, t.text ≠ "" := by
  fun_induction joinAmounts ps with
  | case1 => simp
  | case2 a => simpa [Piece.token] using hne a
  | case3 a b ps hfraction ih =>
    have ha := hne a List.mem_cons_self
    intro t ht
    rcases List.mem_cons.1 ht with rfl | ht
    · simp [ha]
    · exact ih (fun p hp => hne p (by simp [hp])) t ht
  | case4 a b ps hfraction ih =>
    have ha := hne a List.mem_cons_self
    intro t ht
    rcases List.mem_cons.1 ht with rfl | ht
    · simp [Piece.token, ha]
    · exact ih (fun p hp => hne p (List.mem_cons_of_mem _ hp)) t ht

/-- The token of a place has the characters of the piece that stands there. -/
theorem token_after (kind : Kind) {s a t b : List Char} (hs : s = a ++ t ++ b) (ht : t ≠ [])
    (fallback : String) :
    (TextIndex.ofText s).token kind (.after a) (.after (a ++ t)) fallback =
      ⟨kind, String.ofList t⟩ := by
  unfold TextIndex.token
  rw [hs, TextIndex.between?_after a t b ht]
  rfl

theorem isFractionOf_placed (p q : Piece) (x y z : Position) :
    Placed.isFractionOf ⟨q.form, y, z⟩ ⟨p.form, x, y⟩ = q.isFractionOf p := by
  simp [Placed.isFractionOf, Piece.isFractionOf]

/-- Pieces in their places make the tokens of the pieces. -/
theorem tokensFrom_placesAfter (shown : Form → String) (s a b : List Char) (ps : List Piece)
    (hs : s = a ++ textOf ps ++ b) (hne : ∀ p ∈ ps, p.text ≠ []) (done : List Token) :
    tokensFrom shown (.ofText s) done (placesAfter a ps) = done.reverse ++ joinAmounts ps := by
  induction hn : ps.length using Nat.strongRecOn generalizing ps a done with
  | ind n ih =>
    match ps, hne, hn with
    | [], _, _ => simp [placesAfter, tokensFrom, joinAmounts]
    | [p], hne, _ =>
      have hp := hne p List.mem_cons_self
      rw [textOf_cons, show textOf [] = [] from rfl, List.append_nil] at hs
      simp only [placesAfter, tokensFrom, joinAmounts]
      rw [token_after p.form.kind hs hp, List.reverse_cons]
      rfl
    | p :: q :: ps, hne, hn =>
      simp only [List.length_cons] at hn
      have hp := hne p List.mem_cons_self
      have hsp : s = a ++ p.text ++ textOf (q :: ps) ++ b := by
        rw [hs, textOf_cons p]; simp only [List.append_assoc]
      have hsq : s = a ++ p.text ++ q.text ++ textOf ps ++ b := by
        rw [hsp, textOf_cons q]; simp only [List.append_assoc]
      rw [placesAfter, placesAfter, tokensFrom, isFractionOf_placed, joinAmounts]
      by_cases hfraction : q.isFractionOf p = true
      · -- the amount and its fraction stand side by side
        have hboth : s = a ++ (p.text ++ q.text) ++ (textOf ps ++ b) := by
          rw [hsq]; simp only [List.append_assoc]
        have hrest := ih ps.length (by omega) (a ++ p.text ++ q.text) ps hsq
          (fun x hx => hne x (List.mem_cons_of_mem _ (List.mem_cons_of_mem _ hx)))
          (⟨.money, String.ofList (p.text ++ q.text)⟩ :: done) rfl
        rw [if_pos hfraction, if_pos hfraction, List.append_assoc a,
          token_after .money hboth (by simp [hp]), ← List.append_assoc a, hrest]
        simp
      · have hfirst : s = a ++ p.text ++ (textOf (q :: ps) ++ b) := by
          rw [hsp, List.append_assoc (a ++ p.text)]
        have hrest := ih (q :: ps).length (by simp only [List.length_cons]; omega)
          (a ++ p.text) (q :: ps) hsp (fun x hx => hne x (List.mem_cons_of_mem _ hx))
          (p.token :: done) rfl
        rw [placesAfter] at hrest
        rw [if_neg hfraction, if_neg hfraction, token_after p.form.kind hfirst hp]
        refine hrest.trans ?_
        rw [List.reverse_cons, List.append_assoc, List.singleton_append]

theorem tokensOf_of_cuts (shown : Form → String) {s : List Char} {ps : List Piece}
    (h : Cuts [] s ps) : tokensOf shown s (placesAfter [] ps) = joinAmounts ps := by
  unfold tokensOf
  rw [tokensFrom_placesAfter shown s [] [] ps (by simp [h.textOf_eq]) h.text_ne_nil]
  rfl

theorem place_of_cuts {s : List Char} {ps : List Piece} (h : Cuts [] s ps) :
    place s = .ok (placesAfter [] ps) := by
  have := placeFrom_of_cuts h [] []
  rw [List.append_nil, List.append_nil, placeFrom, List.reverse_reverse] at this
  exact this

theorem tokensBefore_after (shown : Form → String) (a b : List Char) :
    tokensBefore shown (.after a) (a ++ b) =
      match place a with
      | .ok placed => tokensOf shown a placed
      | .error _ => [] := by
  cases h : place a with
  | ok placed => simp only [tokensBefore, TextIndex.offset?_after a b, List.take_left, h]
  | error d => simp only [tokensBefore, TextIndex.offset?_after a b, List.take_left, h]

theorem lexShowing_of_error (shown : Form → String) {source : String} {d : Diagnostic}
    (h : place source.toList = .error d) :
    lexShowing shown source = ⟨tokensBefore shown d.position source.toList, some d⟩ := by
  simp only [lexShowing, h]

/-! ## Top theorems (proved from the lemmas above) -/

/-- A text that is cut into pieces has their tokens and no diagnostic. -/
theorem lexShowing_of_cuts (shown : Form → String) {source : String} {ps : List Piece}
    (h : Cuts [] source.toList ps) : lexShowing shown source = ⟨joinAmounts ps, none⟩ := by
  simp only [lexShowing, place_of_cuts h, tokensOf_of_cuts shown h]

/-- Let the lexer cut off `a` in front of `r`. The tokens of the text `a ++ r` are then those of the
pieces of `a` and of a start `b` of `r`, which is all of `r` if there is no diagnostic, and else
ends where the diagnostic says; or there is a diagnostic and no token. -/
theorem lexShowing_start (shown : Form → String) {source : String} {a r : List Char}
    {ps : List Piece} (ha : Cuts r a ps) (hs : source.toList = a ++ r) :
    ∃ b c, r = b ++ c ∧
      match (lexShowing shown source).diagnostic with
      | none => c = [] ∧
          ∃ qs, Cuts [] (a ++ b) qs ∧ (lexShowing shown source).tokens = joinAmounts qs
      | some d => Position.after (a ++ b) = d.position ∧ source ≠ "" ∧
          ((lexShowing shown source).tokens = [] ∨ c ≠ [] ∧
            ∃ qs, Cuts [] (a ++ b) qs ∧ (lexShowing shown source).tokens = joinAmounts qs) := by
  cases h : place source.toList with
  | ok placed =>
    obtain ⟨qs, hqs⟩ := exists_cuts_of_place h
    rw [lexShowing_of_cuts shown hqs]
    exact ⟨r, [], by simp, rfl, qs, by rwa [← hs], rfl⟩
  | error d =>
    have hr := placeFrom_of_cuts ha [] []
    rw [List.nil_append, ← hs] at hr
    obtain ⟨b, c, hbc, hp⟩ := position_of_placeFrom_error (hr.symm.trans h)
    refine ⟨b, c, hbc, ?_⟩
    rw [lexShowing_of_error shown h, hp, hs, hbc, ← List.append_assoc, tokensBefore_after]
    refine ⟨hp.symm, ?_, ?_⟩
    · rintro rfl
      rw [place, String.toList_empty, placeFrom] at h
      cases h
    · cases hab : place (a ++ b) with
      | error e => exact Or.inl rfl
      | ok placed =>
        obtain ⟨qs, hqs⟩ := exists_cuts_of_place hab
        obtain rfl := Except.ok.inj ((place_of_cuts hqs).symm.trans hab)
        refine Or.inr ⟨?_, qs, hqs, tokensOf_of_cuts shown hqs⟩
        -- with nothing left the text itself would have been cut
        rintro rfl
        rw [hs, hbc, List.append_nil, hab] at h
        cases h

/-- Where the text lexes, or leaves a token, the tokens are those of the pieces of `a` and of a
start of `r`. -/
theorem exists_cuts_of_tokens (shown : Form → String) {source : String} {a r : List Char}
    {ps : List Piece} (ha : Cuts r a ps) (hs : source.toList = a ++ r)
    (hlex : (lexShowing shown source).diagnostic = none ∨ (lexShowing shown source).tokens ≠ []) :
    ∃ b c, r = b ++ c ∧ ((lexShowing shown source).diagnostic = none → c = []) ∧
      ∃ qs, Cuts [] (a ++ b) qs ∧ (lexShowing shown source).tokens = joinAmounts qs := by
  obtain ⟨b, c, hbc, hstart⟩ := lexShowing_start shown ha hs
  refine ⟨b, c, hbc, ?_⟩
  cases hd : (lexShowing shown source).diagnostic with
  | none =>
    rw [hd] at hstart
    exact ⟨fun _ => hstart.1, hstart.2⟩
  | some d =>
    rw [hd] at hstart hlex
    refine ⟨fun h => (by cases h), ?_⟩
    rcases hstart.2.2 with hnone | ⟨-, hqs⟩
    · rcases hlex with h | htokens
      · cases h
      · exact absurd hnone htokens
    · exact hqs

end RoutineParams
