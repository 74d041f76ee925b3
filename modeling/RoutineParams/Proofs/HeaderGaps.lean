import RoutineParams.Proofs.Edges
import RoutineParams.Proofs.HeaderTexts

/-!
# Words and gaps of a header

The words at the start of a batch as tokens, each with the blanks and comments after it. The reader
of headers finds a word where the token has its letters, and goes on behind it if the gap is blank; a
comment ends what it reads.

    the reader goes on behind a gap that is blank and has a character     (bind_afterBlanks?_charsOf)
    the reader goes on behind a verb whose gaps are blank                   (bind_afterVerb?_charsOf)
-/

namespace RoutineParams

/-! ## Definitions -/

/-- A token and the blanks and comments after it. -/
structure Spaced where
  token : Token
  gap : List Token

/-- The tokens of both. -/
def Spaced.tokens (w : Spaced) : List Token := w.token :: w.gap

/-- Whether a token is the word `w`, in any case. -/
def Token.IsWord (w : List Char) (t : Token) : Prop := t.text.toList.map Char.toUpper = w

/-- Whether a gap has blanks and no comments. -/
def isBlankGap (gap : List Token) : Bool := !gap.isEmpty && gap.all (·.kind == .blank)

/-- The words `CREATE`, `ALTER` or `CREATE OR ALTER`. -/
inductive IsTokenVerb : List Spaced → Prop
  | create {c : Spaced} :
      c.token.IsWord ['C', 'R', 'E', 'A', 'T', 'E'] → IsTokenVerb [c]
  | alter {a : Spaced} : a.token.IsWord ['A', 'L', 'T', 'E', 'R'] → IsTokenVerb [a]
  | createOrAlter {c o a : Spaced} :
      c.token.IsWord ['C', 'R', 'E', 'A', 'T', 'E'] → o.token.IsWord ['O', 'R'] →
        a.token.IsWord ['A', 'L', 'T', 'E', 'R'] → IsTokenVerb [c, o, a]

/-! ## Lemmas: gaps -/

variable {g rest : List Token} {t name : Token} {kind : RoutineKind} {words : List Spaced}

theorem Fitting.of_append {a b : List Token} (h : Fitting (a ++ b)) : Fitting b := by
  induction a with
  | nil => exact h
  | cons t a ih => exact ih h.2

theorem Fitting.fits {a b : List Token} (h : Fitting (a ++ t :: b)) : t.Fits (charsOf b) :=
  h.of_append.1

theorem isAllBlank_charsOf (h : Fitting (g ++ rest)) (hg : ∀ t ∈ g, t.kind = .blank) :
    isAllBlank (charsOf g) = true := by
  induction g with
  | nil => rfl
  | cons t g ih =>
    obtain ⟨ht, hrest⟩ := List.forall_mem_cons.1 hg
    rw [charsOf_cons, isAllBlank_append, h.1.blank ht, ih h.2 hrest]
    rfl

/-- The first comment of a gap comes after blanks, with a sign of its own. -/
theorem exists_comment (h : Fitting (g ++ rest)) (hg : ∀ t ∈ g, t.isGap = true)
    (hcomment : ∃ t ∈ g, t.kind ≠ .blank) :
    ∃ b c r, charsOf (g ++ rest) = b ++ c :: r ∧ isAllBlank b = true ∧ (c = '-' ∨ c = '/') := by
  induction g with
  | nil =>
    obtain ⟨t, ht, -⟩ := hcomment
    cases ht
  | cons t g ih =>
    obtain ⟨ht, hrest⟩ := List.forall_mem_cons.1 hg
    rw [List.cons_append, charsOf_cons]
    by_cases hblank : t.kind = .blank
    · obtain ⟨u, hu, hkind⟩ := hcomment
      have hmem : u ∈ g := (List.mem_cons.1 hu).resolve_left (by rintro rfl; exact hkind hblank)
      obtain ⟨b, c, r, hsplit, hb, hc⟩ := ih h.2 hrest ⟨u, hmem, hkind⟩
      refine ⟨t.text.toList ++ b, c, r, by rw [hsplit, List.append_assoc], ?_, hc⟩
      rw [isAllBlank_append, h.1.blank hblank, hb]
      rfl
    · have hcom : t.isComment = true := by simpa [Token.isGap, hblank] using ht
      obtain ⟨c, s, hs⟩ := List.exists_cons_of_ne_nil h.1.ne_nil
      refine ⟨[], c, s ++ charsOf (g ++ rest), by rw [hs]; rfl, rfl, ?_⟩
      exact h.1.starts_comment hcom c (by rw [hs]; rfl)

/-- What is read behind a blank, and is not read at the sign of a comment, is read behind a gap of
blanks. -/
theorem bind_afterBlanks?_charsOf {α : Type} {p : List Char → Option α}
    (h : Fitting (g ++ t :: rest)) (hg : ∀ u ∈ g, u.isGap = true) (ht : t.isGap = false)
    (hp : ∀ c s, c = '-' ∨ c = '/' → p (c :: s) = none) :
    (afterBlanks? (charsOf (g ++ t :: rest))).bind p =
      if isBlankGap g then p (charsOf (t :: rest)) else none := by
  have hblank : ∀ c ∈ (charsOf (t :: rest)).head?, isBlank c = false := by
    obtain ⟨c, s, hs⟩ := List.exists_cons_of_ne_nil h.fits.ne_nil
    intro d hd
    rw [charsOf_cons, hs] at hd
    exact h.fits.not_blank ht d (by rw [hs]; exact hd)
  by_cases hall : ∀ u ∈ g, u.kind = .blank
  · cases g with
    | nil =>
      obtain ⟨c, s, hs⟩ := List.exists_cons_of_ne_nil h.fits.ne_nil
      have hc : isBlank c = false := hblank c (by rw [charsOf_cons, hs]; rfl)
      rw [List.nil_append, charsOf_cons, hs, List.cons_append, afterBlanks?, if_neg (by simp [hc])]
      rfl
    | cons u g =>
      have hspace : IsSpace (charsOf (u :: g)) :=
        ⟨by rw [charsOf_cons]; simp [h.1.ne_nil], isAllBlank_charsOf h hall⟩
      rw [charsOf_append, afterBlanks?_append hspace hblank, Option.bind_some, if_pos]
      simpa [isBlankGap] using hall
  · have hno : isBlankGap g = false := by
      simpa [isBlankGap] using fun _ => hall
    simp only [not_forall, exists_prop] at hall
    obtain ⟨b, c, r, hsplit, hb, hc⟩ := exists_comment h hg hall
    have hsign : isBlank c = false := by
      rcases hc with rfl | rfl <;> decide
    rw [hsplit, hno, if_neg Bool.false_ne_true]
    cases b with
    | nil =>
      rw [List.nil_append, afterBlanks?, if_neg (by simp [hsign])]
      rfl
    | cons d b =>
      have hhead : ∀ e ∈ (c :: r).head?, isBlank e = false := by
        intro e he
        obtain rfl := Option.some.inj he
        exact hsign
      rw [afterBlanks?_append ⟨List.cons_ne_nil d b, hb⟩ hhead]
      exact hp c r hc

/-! ## Lemmas: words -/

theorem Token.Fits.isGap_of_head? {s r : List Char} {c : Char} (ht : t.Fits s)
    (hc : t.text.toList = c :: r) (hblank : isBlank c = false) (hsign : ¬(c = '-' ∨ c = '/')) :
    t.isGap = false := by
  rw [Bool.eq_false_iff]
  intro hgap
  simp only [Token.isGap, Bool.or_eq_true, beq_iff_eq] at hgap
  rcases hgap with hkind | hcomment
  · have hall := ht.blank hkind
    rw [hc, isAllBlank_cons, hblank] at hall
    cases hall
  · exact hsign (ht.starts_comment hcomment c (by rw [hc]; rfl))

/-- A word is no gap. -/
theorem Token.IsWord.isGap {s w : List Char} {a : Char} (h : t.IsWord (a :: w)) (ht : t.Fits s)
    (ha : isBlank a = false) (hsign : ¬(a = '-' ∨ a = '/')) : t.isGap = false := by
  obtain ⟨c, r, hc⟩ := List.exists_cons_of_ne_nil ht.ne_nil
  rw [Token.IsWord, hc] at h
  have hupper : c.toUpper = a := (List.cons.inj h).1
  refine ht.isGap_of_head? hc (isBlank_of_toUpper hupper ha) fun hor => hsign ?_
  rcases hor with rfl | rfl
  · exact .inl hupper.symm
  · exact .inr hupper.symm

theorem head?_charsOf_of_isWord {w : List Char} {a : Char} (h : t.IsWord (a :: w)) :
    ∀ c ∈ (charsOf (t :: rest)).head?, c.toUpper = a := by
  rw [charsOf_cons]
  exact head?_append_of_map h _

theorem isGap_of_name (h : name.kind = .identifier ∨ name.kind = .quotedIdentifier) :
    name.isGap = false := by
  rcases h with h | h <;> simp [Token.isGap, Token.isComment, h]

/-! ## Lemmas: verbs -/

/-- The text after `OR ALTER` at the front. -/
def afterOrAlter? (s : List Char) : Option (List Char) :=
  (afterWord? ['O', 'R'] s).bind fun s =>
    (afterBlanks? s).bind (afterWord? ['A', 'L', 'T', 'E', 'R'])

theorem afterVerb?_create {v : List Char} (hv : v.map Char.toUpper = ['C', 'R', 'E', 'A', 'T', 'E'])
    (s : List Char) :
    afterVerb? (v ++ s) = some (((afterBlanks? s).bind afterOrAlter?).getD s) := by
  rw [afterVerb?, afterWord?_append hv]
  rfl

theorem afterVerb?_alter {v : List Char} (hv : v.map Char.toUpper = ['A', 'L', 'T', 'E', 'R'])
    (s : List Char) : afterVerb? (v ++ s) = some s := by
  have hc : ∀ c ∈ (v ++ s).head?, c.toUpper ≠ 'C' := by
    intro c hc
    rw [head?_append_of_map hv _ c hc]
    decide
  rw [afterVerb?, afterWord?_of_head? hc]
  exact afterWord?_append hv _

theorem afterWord?_of_sign {a : Char} (ha : a ≠ '-' ∧ a ≠ '/') {w : List Char} :
    ∀ c s, c = '-' ∨ c = '/' → afterWord? (a :: w) (c :: s) = none := by
  intro c s hc
  refine afterWord?_of_head? fun d hd => ?_
  obtain rfl := Option.some.inj hd
  rcases hc with rfl | rfl
  · exact ha.1.symm
  · exact ha.2.symm

theorem afterOrAlter?_of_head? {s : List Char} (h : ∀ c ∈ s.head?, c.toUpper ≠ 'O') :
    afterOrAlter? s = none := by
  rw [afterOrAlter?, afterWord?_of_head? h]
  rfl

theorem afterOrAlter?_of_sign : ∀ c s, c = '-' ∨ c = '/' → afterOrAlter? (c :: s) = none := by
  intro c s hc
  rw [afterOrAlter?, afterWord?_of_sign (by decide) c s hc]
  rfl

/-- What is read behind a verb and a blank, and neither at the sign of a comment nor at `OR`, is read
behind the words of a verb with gaps of blanks. -/
theorem bind_afterVerb?_charsOf {α : Type} {p : List Char → Option α} {verb : List Spaced}
    (h : Fitting (verb.flatMap Spaced.tokens ++ t :: rest)) (hverb : IsTokenVerb verb)
    (hgaps : ∀ w ∈ verb, ∀ u ∈ w.gap, u.isGap = true) (ht : t.isGap = false)
    (hto : ∀ c ∈ (charsOf (t :: rest)).head?, c.toUpper ≠ 'O')
    (hsign : ∀ c s, c = '-' ∨ c = '/' → p (c :: s) = none)
    (ho : ∀ s, (∀ c ∈ s.head?, c.toUpper = 'O') → p s = none) :
    ((afterVerb? (charsOf (verb.flatMap Spaced.tokens ++ t :: rest))).bind fun s =>
        (afterBlanks? s).bind p) =
      if verb.all (isBlankGap ·.gap) then p (charsOf (t :: rest)) else none := by
  cases hverb with
  | @create c hc =>
    simp only [List.flatMap_singleton, Spaced.tokens, List.cons_append] at h ⊢
    have hgap := hgaps c (by simp)
    have hno := bind_afterBlanks?_charsOf h.2 hgap ht afterOrAlter?_of_sign
    rw [afterOrAlter?_of_head? hto, ite_self] at hno
    rw [charsOf_cons, afterVerb?_create hc, hno, Option.bind_some, Option.getD_none,
      bind_afterBlanks?_charsOf h.2 hgap ht hsign]
    simp
  | @alter a ha =>
    simp only [List.flatMap_singleton, Spaced.tokens, List.cons_append] at h ⊢
    rw [charsOf_cons, afterVerb?_alter ha, Option.bind_some,
      bind_afterBlanks?_charsOf h.2 (hgaps a (by simp)) ht hsign]
    simp
  | @createOrAlter c o a hc hor ha =>
    simp only [List.flatMap_cons, List.flatMap_nil, Spaced.tokens, List.cons_append,
      List.append_assoc, List.append_nil] at h ⊢
    have hgap := hgaps c (by simp)
    have hor' := hor.isGap h.2.fits (by decide) (by decide)
    have ha' := ha.isGap h.2.of_append.2.fits (by decide) (by decide)
    have hlonger := bind_afterBlanks?_charsOf h.2 hgap hor' afterOrAlter?_of_sign
    rw [charsOf_cons o.token, afterOrAlter?, afterWord?_append hor, Option.bind_some,
      bind_afterBlanks?_charsOf h.2.of_append.2 (hgaps o (by simp)) ha'
        (afterWord?_of_sign (by decide)),
      charsOf_cons a.token, afterWord?_append ha] at hlonger
    rw [charsOf_cons, afterVerb?_create hc, hlonger, Option.bind_some]
    have hshort := bind_afterBlanks?_charsOf h.2 hgap hor' hsign
    rw [ho _ (head?_charsOf_of_isWord hor), ite_self] at hshort
    cases hblank : isBlankGap c.gap with
    | false => simpa [hblank] using hshort
    | true =>
      cases hblank' : isBlankGap o.gap with
      | false => simpa [hblank, hblank'] using hshort
      | true =>
        have hlong := bind_afterBlanks?_charsOf h.2.of_append.2.of_append.2 (hgaps a (by simp)) ht
          hsign
        simpa [hblank, hblank'] using hlong

end RoutineParams
