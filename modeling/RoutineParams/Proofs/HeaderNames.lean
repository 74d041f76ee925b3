import RoutineParams.Proofs.HeaderTexts

/-!
# The name in a header

The name of a routine is that of its header with single points between the parts: the blanks around
the points that part it are left out. The blanks beside a point within brackets are left out as well,
so the parts are spelled as in the header just if none of them has a blank beside a point.

    tightenDots s = s ↔ hasSpacedDot s = false                           (tightenDots_eq_self_iff)
    Spells parts n → tightenDots n is parts.map tightenDots with points between
                                                                            (tightenDots_spells)
-/

namespace RoutineParams

/-! ## Definitions -/

/-- Whether a blank stands beside a point. -/
def hasSpacedDot : List Char → Bool
  | c :: d :: s => (isBlank c && d == '.') || (c == '.' && isBlank d) || hasSpacedDot (d :: s)
  | _ => false

/-- Whether a text ends in neither a blank nor a point. -/
def EndsTight (l : List Char) : Prop := ∀ c ∈ l.getLast?, isBlank c = false ∧ c ≠ '.'

/-- Texts with single points between them. -/
def joinDots (parts : List (List Char)) : List Char := ['.'].intercalate parts

/-! ## Lemmas: blanks beside points -/

theorem hasSpacedDot_cons (c : Char) (s : List Char) :
    hasSpacedDot (c :: s) = false ↔
      (∀ d ∈ s.head?, ¬(isBlank c = true ∧ d = '.') ∧ ¬(c = '.' ∧ isBlank d = true)) ∧
        hasSpacedDot s = false := by
  cases s with
  | nil => simp [hasSpacedDot]
  | cons d s => simp [hasSpacedDot, and_assoc]

/-- A piece of a text has no blank beside a point where the text has none. -/
theorem hasSpacedDot_of_infix {l s : List Char} (hl : l <:+: s) (hs : hasSpacedDot s = false) :
    hasSpacedDot l = false := by
  obtain ⟨a, b, rfl⟩ := hl
  have hright : hasSpacedDot (l ++ b) = false := by
    induction a with
    | nil => exact hs
    | cons c a ih => exact ih ((hasSpacedDot_cons c _).1 hs).2
  clear hs
  induction l with
  | nil => rfl
  | cons c l ih =>
    obtain ⟨hhead, htail⟩ := (hasSpacedDot_cons c (l ++ b)).1 hright
    refine (hasSpacedDot_cons c l).2 ⟨fun d hd => hhead d ?_, ih htail⟩
    cases l with
    | nil => cases hd
    | cons => exact hd

/-- What comes first in a tightened text is a point, or what came first before. -/
theorem head?_tightenDots (s : List Char) :
    ∀ d ∈ (tightenDots s).head?, (∃ t, s.dropWhile isBlank = '.' :: t) ∧ d = '.' ∨
      d ∈ s.head? ∧ ∀ t, s.dropWhile isBlank ≠ '.' :: t := by
  intro d hd
  cases s with
  | nil => rw [tightenDots.eq_def] at hd; cases hd
  | cons c s =>
    by_cases hdot : ∃ t, (c :: s).dropWhile isBlank = '.' :: t
    · obtain ⟨t, ht⟩ := hdot
      rw [tightenDots_of_dot ht] at hd
      exact .inl ⟨⟨t, ht⟩, (Option.some.inj hd).symm⟩
    · have hno : ∀ t, (c :: s).dropWhile isBlank ≠ '.' :: t := fun t ht => hdot ⟨t, ht⟩
      rw [tightenDots_of_no_dot hno] at hd
      exact .inr ⟨hd, hno⟩

/-- No blank is left beside a point. -/
theorem hasSpacedDot_tightenDots (s : List Char) : hasSpacedDot (tightenDots s) = false := by
  induction s using tightenDots.induct with
  | case1 => rw [tightenDots.eq_def]; rfl
  | case2 c s t ht ih =>
    rw [tightenDots_of_dot ht]
    refine (hasSpacedDot_cons _ _).2 ⟨fun d hd => ⟨by simp [show isBlank '.' = false from rfl], ?_⟩, ih⟩
    rintro ⟨-, hblank⟩
    rcases head?_tightenDots _ d hd with ⟨-, rfl⟩ | ⟨hhead, -⟩
    · cases hblank
    · rw [head?_dropWhile_isBlank t d hhead] at hblank
      cases hblank
  | case3 c s hdot ih =>
    rw [tightenDots_of_no_dot hdot]
    refine (hasSpacedDot_cons _ _).2 ⟨fun d hd => ⟨?_, ?_⟩, ih⟩
    · -- after a blank no point comes first
      rintro ⟨hc, rfl⟩
      rw [List.dropWhile_cons_of_pos hc] at hdot
      rcases head?_tightenDots s '.' hd with ⟨⟨t, ht⟩, -⟩ | ⟨hhead, hno⟩
      · exact hdot t ht
      · obtain ⟨u, rfl⟩ := List.head?_eq_some_iff.1 hhead
        exact hno u (List.dropWhile_cons_of_neg (by decide))
    · rintro ⟨rfl, -⟩
      exact hdot s (List.dropWhile_cons_of_neg (by decide))

/-- A point that comes first after blanks comes first. -/
theorem eq_of_dropWhile_isBlank {s t : List Char} (h : hasSpacedDot s = false)
    (ht : s.dropWhile isBlank = '.' :: t) : s = '.' :: t := by
  induction s with
  | nil => cases ht
  | cons c s ih =>
    cases hc : isBlank c with
    | false => rwa [List.dropWhile_cons_of_neg (by simp [hc])] at ht
    | true =>
      rw [List.dropWhile_cons_of_pos hc] at ht
      obtain ⟨hhead, htail⟩ := (hasSpacedDot_cons c s).1 h
      obtain rfl := ih htail ht
      exact absurd ⟨hc, rfl⟩ (hhead '.' rfl).1

theorem tightenDots_of_tight {s : List Char} (h : hasSpacedDot s = false) : tightenDots s = s := by
  induction s using tightenDots.induct with
  | case1 => rw [tightenDots.eq_def]
  | case2 c s t ht ih =>
    obtain ⟨rfl, rfl⟩ := List.cons.inj (eq_of_dropWhile_isBlank h ht)
    obtain ⟨hhead, htail⟩ := (hasSpacedDot_cons _ _).1 h
    have hdrop : s.dropWhile isBlank = s := by
      refine dropWhile_isBlank_of_head? fun d hd => ?_
      cases hblank : isBlank d with
      | false => rfl
      | true => exact absurd ⟨rfl, hblank⟩ (hhead d hd).2
    rw [tightenDots_of_dot ht]
    rw [hdrop] at ih ⊢
    rw [ih htail]
  | case3 c s hdot ih =>
    rw [tightenDots_of_no_dot hdot, ih ((hasSpacedDot_cons c s).1 h).2]

theorem tightenDots_eq_self_iff {s : List Char} : tightenDots s = s ↔ hasSpacedDot s = false :=
  ⟨fun h => h ▸ hasSpacedDot_tightenDots s, tightenDots_of_tight⟩

/-! ## Lemmas: tight ends -/

theorem EndsTight.of_suffix {l s : List Char} (hl : EndsTight l) (hs : s <:+ l) : EndsTight s := by
  obtain ⟨a, rfl⟩ := hs
  intro c hc
  exact hl c (by rw [Option.mem_def, List.getLast?_append, Option.mem_def.1 hc, Option.some_or])

/-- The blanks at the front of such a text end within it. -/
theorem EndsTight.dropWhile_append {l : List Char} (hl : EndsTight l) (hne : l ≠ []) :
    ∃ d t, l.dropWhile isBlank = d :: t ∧ ∀ r, (l ++ r).dropWhile isBlank = d :: (t ++ r) := by
  have hblank : isAllBlank l = false := by
    rw [Bool.eq_false_iff]
    intro hall
    have hlast := (hl _ (List.getLast?_eq_some_getLast hne)).1
    rw [List.all_eq_true.1 hall _ (List.getLast_mem hne)] at hlast
    cases hlast
  obtain ⟨b, d, t, rfl, hb, hd⟩ := exists_nonblank hblank
  refine ⟨d, t, dropWhile_isBlank_of_nonblank hb hd t, fun r => ?_⟩
  rw [List.append_assoc, List.cons_append, dropWhile_isBlank_of_nonblank hb hd]

/-- A text that ends so is tightened apart from what follows. -/
theorem EndsTight.tightenDots_append {l : List Char} (hl : EndsTight l) (r : List Char) :
    tightenDots (l ++ r) = tightenDots l ++ tightenDots r := by
  induction l using tightenDots.induct with
  | case1 => rw [tightenDots.eq_def []]; rfl
  | case2 c s t ht ih =>
    have hsuffix : '.' :: t <:+ c :: s := ht ▸ List.dropWhile_suffix isBlank
    have htight : EndsTight t := hl.of_suffix ((List.suffix_cons '.' t).trans hsuffix)
    have hne : t ≠ [] := by
      rintro rfl
      exact (hl.of_suffix hsuffix '.' rfl).2 rfl
    obtain ⟨_, _, hfront, hwhole⟩ := hl.dropWhile_append (List.cons_ne_nil c s)
    obtain ⟨rfl, rfl⟩ := List.cons.inj (ht.symm.trans hfront)
    obtain ⟨d, u, hrest, happend⟩ := htight.dropWhile_append hne
    have ih := ih (htight.of_suffix (List.dropWhile_suffix isBlank))
    rw [hrest, List.cons_append] at ih
    rw [tightenDots_of_dot (hwhole r), tightenDots_of_dot ht, happend, hrest, ih, List.cons_append]
  | case3 c s hdot ih =>
    obtain ⟨d, u, hfront, hwhole⟩ := hl.dropWhile_append (List.cons_ne_nil c s)
    have hno : ∀ t, (c :: (s ++ r)).dropWhile isBlank ≠ '.' :: t := by
      intro t ht
      obtain ⟨rfl, -⟩ := List.cons.inj ((hwhole r).symm.trans ht)
      exact hdot u hfront
    rw [List.cons_append, tightenDots_of_no_dot hno, tightenDots_of_no_dot hdot,
      ih (hl.of_suffix (List.suffix_cons c s)), List.cons_append]

/-! ## Lemmas: parts -/

theorem isBlank_of_isNamePart {c : Char} (hc : isNamePart c = true ∨ isNameStart c = true) :
    isBlank c = false ∧ c ≠ '.' := by
  constructor
  · cases hblank : isBlank c with
    | false => rfl
    | true =>
      rw [isNamePart_of_isBlank hblank, isNameStart_of_isBlank hblank] at hc
      rcases hc with h | h <;> cases h
  · rintro rfl
    revert hc
    decide

theorem IsPart.endsTight {p : List Char} (hp : IsPart p) : EndsTight p := by
  intro d hd
  cases hp with
  | @bracketed p hne hp =>
    rw [← List.cons_append, List.getLast?_concat] at hd
    obtain rfl := Option.some.inj hd
    decide
  | @regular c p hc hp =>
    rcases List.mem_cons.1 (List.mem_of_mem_getLast? hd) with rfl | hd
    · exact isBlank_of_isNamePart (.inr hc)
    · exact isBlank_of_isNamePart (.inl (hp d hd))

theorem joinDots_cons (p : List Char) {parts : List (List Char)} (h : parts ≠ []) :
    joinDots (p :: parts) = p ++ '.' :: joinDots parts := by
  obtain ⟨q, parts, rfl⟩ := List.exists_cons_of_ne_nil h
  simp [joinDots]

theorem Spells.ne_nil {parts : List (List Char)} {n : List Char} (hn : Spells parts n) :
    parts ≠ [] := by
  cases hn <;> simp

theorem isBlank_head?_dot (r : List Char) : ∀ c ∈ ('.' :: r).head?, isBlank c = false := by
  intro c hc
  obtain rfl := Option.some.inj hc
  decide

/-- Of a name the blanks around the points that part it are left out, and of each part those beside
its own points. -/
theorem tightenDots_spells {parts : List (List Char)} {n : List Char} (hn : Spells parts n) :
    tightenDots n = joinDots (parts.map tightenDots) := by
  induction hn with
  | @last p hp => simp [joinDots]
  | @dotted p a b n parts hp ha hb hn ih =>
    have hblank := hn.isBlank_head? []
    rw [List.append_nil] at hblank
    rw [hp.endsTight.tightenDots_append,
      tightenDots_of_dot (dropWhile_isBlank_append_stop ha (isBlank_head?_dot _)),
      dropWhile_isBlank_append_stop hb hblank, ih, List.map_cons,
      joinDots_cons _ (by simpa using hn.ne_nil)]

theorem infix_joinDots {p : List Char} {parts : List (List Char)} (h : p ∈ parts) :
    p <:+: joinDots parts := by
  induction parts with
  | nil => cases h
  | cons q parts ih =>
    by_cases hnil : parts = []
    · subst hnil
      obtain rfl := List.mem_singleton.1 h
      simp [joinDots]
    · rw [joinDots_cons q hnil]
      rcases List.mem_cons.1 h with rfl | h
      · exact (List.prefix_append _ _).isInfix
      · exact (ih h).trans ((List.suffix_cons _ _).trans (List.suffix_append _ _)).isInfix

/-- The parts keep their spelling just if none has a blank beside a point. -/
theorem Spells.map_tightenDots_iff {parts : List (List Char)} {n : List Char} (hn : Spells parts n) :
    joinDots (parts.map tightenDots) = joinDots parts ↔ ∀ p ∈ parts, hasSpacedDot p = false := by
  constructor
  · intro h p hp
    have htight := hasSpacedDot_tightenDots n
    rw [tightenDots_spells hn, h] at htight
    exact hasSpacedDot_of_infix (infix_joinDots hp) htight
  · intro h
    rw [List.map_congr_left fun p hp => tightenDots_of_tight (h p hp), List.map_id'']
    simp

/-- The header of a text that starts with an opening and a name, which a blank ends and no point
follows. -/
theorem headerFrom?_of_spells {kind : RoutineKind} {o n r : List Char} {b : Char}
    {parts : List (List Char)} (ho : IsOpening kind o) (hn : Spells parts n)
    (hb : isBlank b = true) (hr : (r.dropWhile isBlank).head? ≠ some '.') :
    headerFrom? false (o ++ (n ++ b :: r)) =
      some ⟨kind, String.ofList (joinDots (parts.map tightenDots))⟩ := by
  have hstop : ∀ c ∈ (b :: r).head?, isNamePart c = false := by
    intro c hc
    obtain rfl := Option.some.inj hc
    exact isNamePart_of_isBlank hb
  have hdot : dottedLength (b :: r) = 0 := by
    refine dottedLength_of_no_dot fun t ht => ?_
    rw [List.dropWhile_cons_of_pos hb] at ht
    exact hr (by rw [ht]; rfl)
  have hname : name? (n ++ b :: r) = some n := by
    rw [name?_eq, if_neg (hn.partLength_ne_zero _), hn.nameLength_eq hstop hdot, List.take_left]
  have hread : headerAt? (o ++ (n ++ b :: r)) =
      some ⟨kind, String.ofList (joinDots (parts.map tightenDots))⟩ := by
    rw [headerAt?_append ho (hn.isBlank_head? _), hname, ← tightenDots_spells hn]
    rfl
  exact headerFrom?_eq_some_iff_exists.2
    ⟨[], _, rfl, rfl, hread, fun u v huv hv => absurd (List.append_eq_nil_iff.1 huv.symm).2 hv⟩

/-! ## Top theorem (proved from the lemmas above) -/

/-- **The name of a routine.** Its parts are those in the header, with single points between them,
and each as it is spelled there but for the blanks beside its own points. So the name is spelled as
the parts are just if no part has a blank beside a point. -/
theorem header?_of_spells {kind : RoutineKind} {o n r : List Char} {b : Char}
    {parts : List (List Char)} (ho : IsOpening kind o) (hn : Spells parts n)
    (hb : isBlank b = true) (hr : (r.dropWhile isBlank).head? ≠ some '.') :
    header? (String.ofList (o ++ (n ++ b :: r))) =
        some ⟨kind, String.ofList (joinDots (parts.map tightenDots))⟩ ∧
      (header? (String.ofList (o ++ (n ++ b :: r))) = some ⟨kind, String.ofList (joinDots parts)⟩ ↔
        ∀ p ∈ parts, hasSpacedDot p = false) := by
  have hread := headerFrom?_of_spells ho hn hb hr
  rw [header?, String.toList_ofList, hread]
  refine ⟨rfl, ?_⟩
  rw [← hn.map_tightenDots_iff, Option.some.injEq, Header.mk.injEq, String.ofList_inj]
  simp

/-- A name of two parts, of which the second has blanks beside its point. -/
theorem header?_of_spells_sample :
    IsOpening .procedure "create  or alter\tproc ".toList ∧
      Spells ["dbo".toList, "[Archive . Orders]".toList] "dbo\n. [Archive . Orders]".toList ∧
      header? "create  or alter\tproc dbo\n. [Archive . Orders] @a int" =
        some ⟨.procedure, "dbo.[Archive.Orders]"⟩ ∧
      header? "create  or alter\tproc dbo\n. [Archive . Orders] @a int" ≠
        some ⟨.procedure, "dbo.[Archive . Orders]"⟩ := by
  have ho : IsOpening .procedure "create  or alter\tproc ".toList :=
    .mk (v := "create  or alter".toList) (a := ['\t']) (w := "proc".toList) (b := [' '])
      (.createOrAlter (v := "create".toList) (a := "  ".toList) (o := "or".toList) (b := [' '])
        (w := "alter".toList) rfl ⟨by decide, by decide⟩ rfl ⟨by decide, by decide⟩ rfl)
      ⟨by decide, by decide⟩ (.proc rfl) ⟨by decide, by decide⟩
  have hn : Spells ["dbo".toList, "[Archive . Orders]".toList] "dbo\n. [Archive . Orders]".toList :=
    .dotted (p := "dbo".toList) (a := ['\n']) (b := [' '])
      (.regular (by decide) (List.all_eq_true.1 (by decide))) (by decide) (by decide)
      (.last (.bracketed (p := "Archive . Orders".toList) (by decide) (by decide)))
  obtain ⟨hname, hsame⟩ := header?_of_spells (r := "@a int".toList) ho hn
    (show isBlank ' ' = true from rfl) (by decide)
  have htext : String.ofList ("create  or alter\tproc ".toList ++
      ("dbo\n. [Archive . Orders]".toList ++ ' ' :: "@a int".toList)) =
        "create  or alter\tproc dbo\n. [Archive . Orders] @a int" := by decide
  have htight : String.ofList (joinDots (["dbo".toList, "[Archive . Orders]".toList].map tightenDots)) =
      "dbo.[Archive.Orders]" := by decide +kernel
  rw [htext] at hname hsame
  rw [htight] at hname
  refine ⟨ho, hn, hname, fun hverbatim => ?_⟩
  have hno := hsame.1 hverbatim "[Archive . Orders]".toList (by simp)
  revert hno
  decide

/-- Not every part is spelled as in the header: of `[a . b]` the blanks beside the point are lost. -/
theorem not_forall_header?_verbatim :
    (¬∀ parts n r, Spells parts n → ['@'] <+: r ∨ ['A', 'S'] <+: r →
        header? (String.ofList ("CREATE PROCEDURE ".toList ++ (n ++ ' ' :: r))) =
          some ⟨.procedure, String.ofList (joinDots parts)⟩) ∧
      header? "CREATE PROCEDURE [a . b] AS" = some ⟨.procedure, "[a.b]"⟩ := by
  refine ⟨fun h => ?_, by decide +kernel⟩
  have ho : IsOpening .procedure "CREATE PROCEDURE ".toList :=
    .mk (v := "CREATE".toList) (a := [' ']) (w := "PROCEDURE".toList) (b := [' ']) (.create rfl)
      ⟨by decide, by decide⟩ (.procedure rfl) ⟨by decide, by decide⟩
  have hn : Spells ["[a . b]".toList] "[a . b]".toList :=
    .last (.bracketed (p := "a . b".toList) (by decide) (by decide))
  have hverbatim := h _ _ "AS".toList hn (.inr (by decide))
  rw [header?, String.toList_ofList, headerFrom?_of_spells ho hn (by decide) (by decide),
    Option.some.injEq, Header.mk.injEq, String.ofList_inj] at hverbatim
  have hno := hn.map_tightenDots_iff.1 hverbatim.2 "[a . b]".toList (by simp)
  revert hno
  decide

end RoutineParams
