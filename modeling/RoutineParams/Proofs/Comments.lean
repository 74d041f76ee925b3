import RoutineParams.Proofs.Edges
import RoutineParams.Proofs.HeaderTexts

/-!
# Headers and comments

A header is looked for in the text of a batch, comments and all. Put a blank in the place of each
comment: where the header of neither text reaches into these places, both texts have the same
header. So a comment has a say only through a header that it holds in part or as a whole, and
through one that comes about when it is gone.

    Remarked l l'                     l' is l with other characters in the marked places
    Remarked l l' → both have the same header, or a header reaches into a marked place
                                                                          (headerFrom?_of_remarked)
    header? batch = header? (blankComments (lex batch).tokens), or …     (header?_blankComments)
-/

namespace RoutineParams

/-! ## Definitions -/

/-- The text of tokens with a blank in the place of each comment. -/
def blankComments (tokens : List Token) : String :=
  String.join (tokens.map fun t => if t.isComment then " " else t.text)

/-- The characters of tokens, each with whether it is one of a comment. -/
def marksOf (tokens : List Token) : List (Char × Bool) :=
  tokens.flatMap fun t => t.text.toList.map fun c => (c, t.isComment)

/-- The characters of tokens with a marked blank in the place of each comment. -/
def blankMarksOf (tokens : List Token) : List (Char × Bool) :=
  tokens.flatMap fun t =>
    if t.isComment then [(' ', true)] else t.text.toList.map fun c => (c, false)

/-- The characters without the marks. -/
def unmarked (l : List (Char × Bool)) : List Char := l.map Prod.fst

/-- Whether the first header of a text, if it has one, has no marked character. -/
def HeaderIsApart (l : List (Char × Bool)) : Prop :=
  ∀ a m r h, l = a ++ (m ++ r) → FirstHeader (unmarked a) (unmarked m) (unmarked r) h →
    ∀ p ∈ m, p.2 = false

/-- Marked characters, of which the last one is of no word if `l` comes after them. -/
structure IsMark (x l : List (Char × Bool)) : Prop where
  ne_nil : x ≠ []
  marked : ∀ p ∈ x, p.2 = true
  ends : l ≠ [] → ∀ p ∈ x.getLast?, isWordChar p.1 = false

/-- Whether `l'` is `l` with other characters in the marked places. -/
inductive Remarked : List (Char × Bool) → List (Char × Bool) → Prop
  | nil : Remarked [] []
  | same {c : Char} {l l' : List (Char × Bool)} :
      Remarked l l' → Remarked ((c, false) :: l) ((c, false) :: l')
  | mark {x y l l' : List (Char × Bool)} :
      IsMark x l → IsMark y l' → Remarked l l' → Remarked (x ++ l) (y ++ l')

/-! ## Lemmas: marks -/

theorem unmarked_append (a b : List (Char × Bool)) :
    unmarked (a ++ b) = unmarked a ++ unmarked b := by
  simp [unmarked]

/-- Behind marked characters no word goes on. -/
theorem IsMark.inWordAfter_append {x l : List (Char × Bool)} (hx : IsMark x l) (hl : l ≠ [])
    (inWord : Bool) (a : List (Char × Bool)) :
    inWordAfter inWord (unmarked (x ++ a)) = inWordAfter false (unmarked a) := by
  obtain ⟨y, p, rfl⟩ := (List.eq_nil_or_concat' x).resolve_left hx.ne_nil
  have hp := hx.ends hl p (by simp)
  simp [inWordAfter, unmarked, hp]

/-- Marked characters before an unmarked one all come before it. -/
theorem exists_of_marked {x l a r : List (Char × Bool)} {c : Char} (hx : ∀ p ∈ x, p.2 = true)
    (h : x ++ l = a ++ (c, false) :: r) : ∃ b, a = x ++ b ∧ l = b ++ (c, false) :: r := by
  rcases List.append_eq_append_iff.1 h with ⟨b, rfl, hl⟩ | ⟨b, rfl, hb⟩
  · exact ⟨b, rfl, hl⟩
  · cases b with
    | nil => exact ⟨[], by simp, by simpa using hb.symm⟩
    | cons p b =>
      obtain ⟨rfl, -⟩ := List.cons.inj hb
      cases hx (c, false) (by simp)

namespace Remarked

variable {l l' a r m : List (Char × Bool)}

theorem symm (h : Remarked l l') : Remarked l' l := by
  induction h with
  | nil => exact .nil
  | same _ ih => exact .same ih
  | mark hx hy _ ih => exact .mark hy hx ih

/-- Both texts have the same unmarked characters. -/
theorem countP_eq (h : Remarked l l') : l.countP (!·.2) = l'.countP (!·.2) := by
  have hmark : ∀ {x l : List (Char × Bool)}, IsMark x l → x.countP (!·.2) = 0 := by
    intro x l hx
    exact List.countP_eq_zero.2 fun p hp => by simp [hx.marked p hp]
  induction h with
  | nil => rfl
  | same _ ih => simp [ih]
  | mark hx hy _ ih => rw [List.countP_append, List.countP_append, hmark hx, hmark hy, ih]

/-- An unmarked character is found in the other text, and a word goes on before it in both or in
neither. -/
theorem split {c : Char} (h : Remarked (a ++ (c, false) :: r) l') :
    ∃ a' r', l' = a' ++ (c, false) :: r' ∧ Remarked a a' ∧ Remarked r r' ∧
      ∀ inWord, inWordAfter inWord (unmarked a) = inWordAfter inWord (unmarked a') := by
  generalize hl : a ++ (c, false) :: r = l at h
  induction h generalizing a with
  | nil => simp at hl
  | @same d l l' hrest ih =>
    cases a with
    | nil =>
      obtain ⟨hpair, rfl⟩ := List.cons.inj hl
      obtain ⟨rfl, -⟩ := Prod.mk.inj hpair
      exact ⟨[], l', rfl, .nil, hrest, fun _ => rfl⟩
    | cons p a =>
      obtain ⟨rfl, hrest⟩ := List.cons.inj hl
      obtain ⟨a', r', rfl, ha, hr, hword⟩ := ih hrest
      exact ⟨(d, false) :: a', r', rfl, .same ha, hr, fun _ => hword (isWordChar d)⟩
  | @mark x y l l' hx hy hrest ih =>
    obtain ⟨b, rfl, hb⟩ := exists_of_marked hx.marked hl.symm
    obtain ⟨b', r', rfl, hb', hr, hword⟩ := ih hb.symm
    have hl : l ≠ [] := by
      rw [hb]
      simp
    have hl' : b' ++ (c, false) :: r' ≠ [] := by simp
    refine ⟨y ++ b', r', by rw [List.append_assoc], ?_, hr, fun inWord => ?_⟩
    · exact .mark ⟨hx.ne_nil, hx.marked, fun _ => hx.ends hl⟩
        ⟨hy.ne_nil, hy.marked, fun _ => hy.ends hl'⟩ hb'
    · rw [hx.inWordAfter_append hl, hy.inWordAfter_append hl', hword]

/-- Unmarked characters at the front are at the front of the other text. -/
theorem of_append (hm : ∀ p ∈ m, p.2 = false) (h : Remarked (m ++ r) l') :
    ∃ r', l' = m ++ r' ∧ Remarked r r' := by
  induction m generalizing l' with
  | nil => exact ⟨l', rfl, h⟩
  | cons p m ih =>
    obtain ⟨hp, htail⟩ := List.forall_mem_cons.1 hm
    obtain ⟨c, b⟩ := p
    obtain rfl : b = false := hp
    generalize hl : (c, false) :: m ++ r = l at h
    cases h with
    | nil => cases hl
    | same hrest =>
      obtain ⟨hpair, rfl⟩ := List.cons.inj hl
      obtain ⟨rfl, -⟩ := Prod.mk.inj hpair
      obtain ⟨r', rfl, hr⟩ := ih htail hrest
      exact ⟨r', rfl, hr⟩
    | @mark x y l l' hx hy hrest =>
      obtain ⟨b, hb, -⟩ := exists_of_marked (a := []) hx.marked hl.symm
      exact absurd (List.append_eq_nil_iff.1 hb.symm).1 hx.ne_nil

end Remarked

/-! ## Lemmas: headers -/

/-- No header starts before the first one. -/
theorem FirstHeader.isPrefix {a m r b t : List Char} {h h' : Header} (hfirst : FirstHeader a m r h)
    (heq : b ++ t = a ++ (m ++ r)) (hb : inWordAfter false b = false)
    (ht : headerAt? t = some h') : a.length ≤ b.length := by
  by_contra hlt
  obtain ⟨v, rfl⟩ : b <+: a :=
    List.prefix_of_prefix_length_le ⟨t, heq⟩ ⟨m ++ r, rfl⟩ (by omega)
  rw [List.append_assoc] at heq
  have hv : v ≠ [] := by
    rintro rfl
    simp at hlt
  have hnone := hfirst.first b v rfl hv hb
  rw [← List.append_cancel_left heq, ht] at hnone
  cases hnone

/-- A text has one first header. -/
theorem FirstHeader.unique {a m r a' m' r' : List Char} {h h' : Header}
    (hfirst : FirstHeader a m r h) (hfirst' : FirstHeader a' m' r' h')
    (heq : a ++ (m ++ r) = a' ++ (m' ++ r')) : a = a' ∧ m = m' ∧ h = h' := by
  have hread := headerAt?_eq_some_iff.2 ⟨m, r, rfl, hfirst.longest⟩
  have hread' := headerAt?_eq_some_iff.2 ⟨m', r', rfl, hfirst'.longest⟩
  have hle := hfirst.isPrefix heq.symm hfirst'.apart hread'
  have hle' := hfirst'.isPrefix heq hfirst.apart hread
  obtain ⟨rfl, hrest⟩ := List.append_inj heq (Nat.le_antisymm hle hle')
  have hm := hfirst.longest.2 m' h' ⟨r', hrest.symm⟩ hfirst'.longest.1
  have hm' := hfirst'.longest.2 m h ⟨r, hrest⟩ hfirst.longest.1
  obtain rfl := hm.eq_of_length_le hm'.length_le
  rw [hrest, hread'] at hread
  exact ⟨rfl, rfl, (Option.some.inj hread).symm⟩

/-- The first header of a marked text, with no marked character. -/
structure ApartHeader (a m r : List (Char × Bool)) (h : Header) : Prop where
  first : FirstHeader (unmarked a) (unmarked m) (unmarked r) h
  apart : ∀ p ∈ m, p.2 = false

theorem exists_of_unmarked_append {l : List (Char × Bool)} {a b : List Char}
    (h : unmarked l = a ++ b) : ∃ a' b', l = a' ++ b' ∧ unmarked a' = a ∧ unmarked b' = b := by
  obtain ⟨a', b', hl, ha, hb⟩ := List.map_eq_append_iff.1 h
  exact ⟨a', b', hl, ha, hb⟩

theorem HeaderIsApart.exists_apartHeader {l : List (Char × Bool)} {h : Header}
    (hl : HeaderIsApart l) (hh : headerFrom? false (unmarked l) = some h) :
    ∃ a m r, l = a ++ (m ++ r) ∧ ApartHeader a m r h := by
  obtain ⟨_, _, _, hsplit, hfirst⟩ := headerFrom?_eq_some_iff.1 hh
  obtain ⟨a, _, rfl, rfl, hrest⟩ := exists_of_unmarked_append hsplit
  obtain ⟨m, r, rfl, rfl, rfl⟩ := exists_of_unmarked_append hrest
  exact ⟨a, m, r, rfl, hfirst, hl a m r h rfl hfirst⟩

theorem ApartHeader.headerIsApart {a m r : List (Char × Bool)} {h : Header}
    (hheader : ApartHeader a m r h) : HeaderIsApart (a ++ (m ++ r)) := by
  intro b n s h' hsplit hfirst
  obtain ⟨ha, hm, -⟩ := hheader.first.unique hfirst (by simp only [← unmarked_append, hsplit])
  have hlength : a.length = b.length := by simpa [unmarked] using congrArg List.length ha
  obtain ⟨rfl, hrest⟩ := List.append_inj hsplit hlength
  have hlength : m.length = n.length := by simpa [unmarked] using congrArg List.length hm
  rw [← List.append_inj_left hrest hlength]
  exact hheader.apart

/-- A header at the front without marks is apart. -/
theorem headerIsApart_of_front {kind : RoutineKind} {o n : List Char} {r : List (Char × Bool)}
    (ho : IsOpening kind o) (hn : name? (n ++ unmarked r) = some n) :
    HeaderIsApart ((o ++ n).map (·, false) ++ r) := by
  have hunmarked : unmarked ((o ++ n).map (·, false)) = o ++ n := by
    simp [unmarked, Function.comp_def]
  refine ApartHeader.headerIsApart (a := []) (h := ⟨kind, String.ofList (tightenDots n)⟩)
    ⟨⟨rfl, ?_, fun u v huv hv => ?_⟩, by simp⟩
  · rw [hunmarked]
    exact longestHeader_of_name? ho hn
  · exact absurd (List.append_eq_nil_iff.1 huv.symm).2 hv

/-- What is marked is nothing to a header without marks: it starts in the other text, behind as many
unmarked characters. -/
theorem ApartHeader.remarked {a m r l' : List (Char × Bool)} {h : Header}
    (hheader : ApartHeader a m r h) (hl : Remarked (a ++ (m ++ r)) l') :
    ∃ a' r', l' = a' ++ (m ++ r') ∧ Remarked a a' ∧ inWordAfter false (unmarked a') = false ∧
      ∃ h', headerAt? (unmarked (m ++ r')) = some h' := by
  have hm := hheader.first.longest.1
  obtain ⟨p, m, rfl⟩ := List.exists_cons_of_ne_nil (fun hnil : m = [] => hm.ne_nil (by rw [hnil]; rfl))
  obtain ⟨c, b⟩ := p
  obtain rfl : b = false := hheader.apart (c, b) List.mem_cons_self
  obtain ⟨a', t', rfl, ha, ht, hword⟩ := hl.split
  obtain ⟨r', rfl, -⟩ := ht.of_append fun p hp => hheader.apart p (List.mem_cons_of_mem _ hp)
  obtain ⟨m', h', hread, -⟩ := hm.headerAt?_append (unmarked r')
  refine ⟨a', r', rfl, ha, ?_, h', ?_⟩
  · rw [← hword]
    exact hheader.first.apart
  · rwa [unmarked_append]

section place

variable {a m r b t : List (Char × Bool)} {h h' : Header}

theorem ApartHeader.isPrefix (hheader : ApartHeader a m r h) (heq : b ++ t = a ++ (m ++ r))
    (hb : inWordAfter false (unmarked b) = false) (ht : headerAt? (unmarked t) = some h') :
    a <+: b := by
  have hchars : unmarked b ++ unmarked t = unmarked a ++ (unmarked m ++ unmarked r) := by
    simp only [← unmarked_append, heq]
  have hle := hheader.first.isPrefix hchars hb ht
  rw [unmarked, unmarked, List.length_map, List.length_map] at hle
  exact List.prefix_of_prefix_length_le ⟨m ++ r, rfl⟩ ⟨t, heq⟩ hle

/-- A header that starts behind no more unmarked characters than the first one is the first one. -/
theorem ApartHeader.eq_of_countP_le (hheader : ApartHeader a m r h) (heq : b ++ t = a ++ (m ++ r))
    (hbefore : a <+: b) (hcount : b.countP (!·.2) ≤ a.countP (!·.2)) : a = b := by
  obtain ⟨v, rfl⟩ := hbefore
  cases v with
  | nil => rw [List.append_nil]
  | cons p v =>
    -- the header starts with an unmarked character
    have hm : m ≠ [] := fun hnil => hheader.first.longest.1.ne_nil (by rw [hnil]; rfl)
    obtain ⟨q, m, rfl⟩ := List.exists_cons_of_ne_nil hm
    rw [List.append_assoc, List.append_cancel_left_eq] at heq
    obtain ⟨rfl, -⟩ := List.cons.inj heq
    have hp := hheader.apart p List.mem_cons_self
    have hpos : 0 < (p :: v).countP (!·.2) := List.countP_pos_iff.2 ⟨p, by simp, by simp [hp]⟩
    rw [List.countP_append] at hcount
    omega

end place

/-- Two texts that differ in marked places have the same header, where both headers are apart. -/
theorem headerFrom?_of_apart {l l' : List (Char × Bool)} {h : Header} (hl : Remarked l l')
    (hapart : HeaderIsApart l) (hapart' : HeaderIsApart l')
    (hh : headerFrom? false (unmarked l) = some h) : headerFrom? false (unmarked l') = some h := by
  obtain ⟨a, m, r, rfl, hheader⟩ := hapart.exists_apartHeader hh
  obtain ⟨a', r', rfl, ha, hstart', g, hat'⟩ := hheader.remarked hl
  -- so the other text has a first header too, which starts in the first text
  obtain ⟨h', hh'⟩ : ∃ h', headerFrom? false (unmarked (a' ++ (m ++ r'))) = some h' := by
    refine Option.ne_none_iff_exists'.1 fun hnone => ?_
    have hno := headerFrom?_eq_none_iff.1 hnone (unmarked a') _ (unmarked_append _ _) hstart'
    rw [hat'] at hno
    cases hno
  obtain ⟨b', n, s', hsplit', hheader'⟩ := hapart'.exists_apartHeader hh'
  obtain ⟨b, s, hsplit, hb, hstart, g', hat⟩ := hheader'.remarked (hsplit' ▸ hl.symm)
  have hprefix' := hheader'.isPrefix hsplit' hstart' hat'
  have hprefix := hheader.isPrefix hsplit.symm hstart hat
  -- both start behind as many unmarked characters
  have hcount' := hprefix'.sublist.countP_le (p := (!·.2))
  have hcount := hprefix.sublist.countP_le (p := (!·.2))
  rw [← ha.countP_eq] at hcount'
  rw [← hb.countP_eq] at hcount
  obtain rfl := hheader.eq_of_countP_le hsplit.symm hprefix (hb.countP_eq ▸ hcount')
  obtain rfl := hheader'.eq_of_countP_le hsplit' hprefix' (ha.countP_eq ▸ hcount)
  have hmn := List.append_cancel_left hsplit
  have hmn' := List.append_cancel_left hsplit'
  have hlong := hheader.first.longest.2 (unmarked n) h'
    (by rw [← unmarked_append, hmn]; exact ⟨_, (unmarked_append _ _).symm⟩) hheader'.first.longest.1
  have hlong' := hheader'.first.longest.2 (unmarked m) h
    (by rw [← unmarked_append, ← hmn']; exact ⟨_, (unmarked_append _ _).symm⟩) hheader.first.longest.1
  have hsame := hheader'.first.longest.1.headerAt?_eq
  rw [hlong.eq_of_length_le hlong'.length_le, hheader.first.longest.1.headerAt?_eq] at hsame
  rw [hh', hsame]

/-- **The marked places have no say** in the header, where none reaches into them. -/
theorem headerFrom?_of_remarked {l l' : List (Char × Bool)} (hl : Remarked l l')
    (hapart : HeaderIsApart l) (hapart' : HeaderIsApart l') :
    headerFrom? false (unmarked l') = headerFrom? false (unmarked l) := by
  refine Option.ext fun h => ⟨fun hh => ?_, fun hh => ?_⟩
  · exact headerFrom?_of_apart hl.symm hapart' hapart hh
  · exact headerFrom?_of_apart hl hapart hapart' hh

/-! ## Lemmas: comments -/

theorem unmarked_marksOf (tokens : List Token) : unmarked (marksOf tokens) = charsOf tokens := by
  simp [unmarked, marksOf, charsOf, List.map_flatMap, Function.comp_def]

theorem unmarked_blankMarksOf (tokens : List Token) :
    unmarked (blankMarksOf tokens) = (blankComments tokens).toList := by
  induction tokens with
  | nil => rfl
  | cons t tokens ih =>
    have hjoin : (blankComments (t :: tokens)).toList =
        (if t.isComment then " " else t.text).toList ++ (blankComments tokens).toList := by
      simp [blankComments, String.join_cons]
    rw [hjoin, ← ih]
    cases hcomment : t.isComment <;>
      simp [blankMarksOf, hcomment, unmarked, Function.comp_def]

theorem Remarked.append_same {l l' : List (Char × Bool)} (h : Remarked l l') (s : List Char) :
    Remarked (s.map (·, false) ++ l) (s.map (·, false) ++ l') := by
  induction s with
  | nil => exact h
  | cons c s ih => exact .same ih

/-- With blanks for its comments a text is the same but for them. -/
theorem remarked_of_fitting {tokens : List Token} (h : Fitting tokens) :
    Remarked (marksOf tokens) (blankMarksOf tokens) := by
  induction tokens with
  | nil => exact .nil
  | cons t tokens ih =>
    obtain ⟨ht, hrest⟩ := h
    have hmarks : marksOf (t :: tokens) =
      t.text.toList.map (·, t.isComment) ++ marksOf tokens := List.flatMap_cons
    have hblanks : blankMarksOf (t :: tokens) =
      (if t.isComment then [(' ', true)] else t.text.toList.map (·, false)) ++
        blankMarksOf tokens := List.flatMap_cons
    rw [hmarks, hblanks]
    cases hcomment : t.isComment with
    | false => exact (ih hrest).append_same t.text.toList
    | true =>
      refine .mark ⟨?_, ?_, fun hne => ?_⟩ ⟨List.cons_ne_nil _ _, by simp, fun _ => ?_⟩ (ih hrest)
      · simpa using ht.ne_nil
      · simp
      · have hchars : charsOf tokens ≠ [] := by
          rw [← unmarked_marksOf]
          simpa [unmarked] using hne
        simpa using ht.ends_comment hcomment hchars
      · intro p hp
        obtain rfl := Option.some.inj hp
        decide

/-! ## Top theorem (proved from the lemmas above) -/

/-- **Comments and headers.** With a blank in the place of each comment a batch has the same kind
and name, or none as before, where neither header has a character of these places. -/
theorem header?_blankComments {batch : String} (hlex : (lex batch).diagnostic = none)
    (hapart : HeaderIsApart (marksOf (lex batch).tokens))
    (hblank : HeaderIsApart (blankMarksOf (lex batch).tokens)) :
    header? (blankComments (lex batch).tokens) = header? batch := by
  obtain ⟨hfitting, hchars⟩ := fitting_tokens hlex
  have hsame := headerFrom?_of_remarked (remarked_of_fitting hfitting) hapart hblank
  rwa [unmarked_blankMarksOf, unmarked_marksOf, hchars] at hsame

/-- A comment behind the header that holds another one. -/
theorem header?_blankComments_sample :
    (lex "create proc p /* alter proc q */ as").diagnostic = none ∧
      HeaderIsApart (marksOf (lex "create proc p /* alter proc q */ as").tokens) ∧
      HeaderIsApart (blankMarksOf (lex "create proc p /* alter proc q */ as").tokens) ∧
      header? (blankComments (lex "create proc p /* alter proc q */ as").tokens) =
        header? "create proc p /* alter proc q */ as" := by
  have hlex : (lex "create proc p /* alter proc q */ as").diagnostic = none := by decide +kernel
  have ho : IsOpening .procedure "create proc ".toList :=
    .mk (v := "create".toList) (a := [' ']) (w := "proc".toList) (b := [' ']) (.create rfl)
      ⟨by decide, by decide⟩ (.proc rfl) ⟨by decide, by decide⟩
  -- in both texts the header is before the comment
  have hmarks : marksOf (lex "create proc p /* alter proc q */ as").tokens =
      ("create proc ".toList ++ ['p']).map (·, false) ++
        marksOf [⟨.blank, " "⟩, ⟨.blockComment, "/* alter proc q */"⟩, ⟨.blank, " "⟩, ⟨.as, "as"⟩] := by
    decide +kernel
  have hblanks : blankMarksOf (lex "create proc p /* alter proc q */ as").tokens =
      ("create proc ".toList ++ ['p']).map (·, false) ++
        blankMarksOf [⟨.blank, " "⟩, ⟨.blockComment, ""⟩, ⟨.blank, " "⟩, ⟨.as, "as"⟩] := by
    decide +kernel
  have hapart : HeaderIsApart (marksOf (lex "create proc p /* alter proc q */ as").tokens) := by
    rw [hmarks]
    exact headerIsApart_of_front ho (by decide +kernel)
  have hblank : HeaderIsApart (blankMarksOf (lex "create proc p /* alter proc q */ as").tokens) := by
    rw [hblanks]
    exact headerIsApart_of_front ho (by decide +kernel)
  exact ⟨hlex, hapart, hblank, header?_blankComments hlex hapart hblank⟩

/-- Comments have a say elsewhere: one that holds a header gives its kind and name, and one between
the words of a header hides it. -/
theorem not_forall_header?_blankComments :
    (¬∀ batch, (lex batch).diagnostic = none →
        header? (blankComments (lex batch).tokens) = header? batch) ∧
      header? "/* create proc p */ create proc q as" = some ⟨.procedure, "p"⟩ ∧
      header? "create /* x */ proc p as" = none := by
  refine ⟨fun h => ?_, by decide +kernel, by decide +kernel⟩
  have hsame := h "create /* x */ proc p as" (by decide +kernel)
  revert hsame
  decide +kernel

end RoutineParams
