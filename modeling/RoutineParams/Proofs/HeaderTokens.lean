import RoutineParams.Proofs.HeaderGaps
import RoutineParams.Routine

/-!
# Headers and tokens

A batch whose tokens start with the words of a header and a name, whatever blanks and comments stand
around them, need not have a header: it is read from the text, with nothing but blanks between the
words, at least one before the name, and with a name of its own notion. A batch that falls short of
this has the header that is found further behind, or none, and then it is passed over.

    headerAt? (the text from the verb on) = if the gaps are blank then … else none
                                                                            (headerAt?_of_opens)
    the batch defines a routine of that kind, or the header is found behind (routine_of_defines)
-/

namespace RoutineParams

/-! ## Definitions -/

/-- The words before the name of a routine of a kind. -/
inductive Opens : RoutineKind → List Spaced → Prop
  | mk {kind : RoutineKind} {verb : List Spaced} {k : Spaced} :
      IsTokenVerb verb → IsKindWord kind k.token.text.toList → Opens kind (verb ++ [k])

/-- Whether tokens, but for the blanks and comments, start with the words of a header and a name. -/
structure Defines (kind : RoutineKind) (tokens lead : List Token) (words : List Spaced)
    (name : Token) (rest : List Token) : Prop where
  tokens_eq : tokens = lead ++ (words.flatMap Spaced.tokens ++ name :: rest)
  lead : ∀ t ∈ lead, t.isGap = true
  opens : Opens kind words
  gaps : ∀ w ∈ words, ∀ t ∈ w.gap, t.isGap = true
  name : name.kind = .identifier ∨ name.kind = .quotedIdentifier

/-- Whether nothing but blanks stands between the words, and the name starts as one of a header. -/
def IsReadable (words : List Spaced) (name : Token) : Prop :=
  (∀ w ∈ words, isBlankGap w.gap = true) ∧ partLength name.text.toList ≠ 0

/-- Whether no header starts within the text `a` before `s`. -/
def NoHeaderIn (a s : List Char) : Prop :=
  ∀ u v, a = u ++ v → v ≠ [] → NoHeaderAt false u (v ++ s)

/-- What is read behind the verb and a blank. -/
def nameHeader? (s : List Char) : Option Header :=
  (afterKind? s).bind fun p => (afterBlanks? p.2).bind fun s =>
    (name? s).map fun n => ⟨p.1, String.ofList (tightenDots n)⟩

variable {g rest : List Token} {t name : Token} {kind : RoutineKind} {words : List Spaced}

/-! ## Lemmas: names -/

theorem takeWhile_bracket (u r : List Char) :
    (u ++ ']' :: r).takeWhile (· != ']') = u.takeWhile (· != ']') := by
  induction u with
  | nil => rfl
  | cons c u ih => rw [List.cons_append, List.takeWhile_cons, List.takeWhile_cons, ih]

/-- What follows a token has no say in whether it starts as a name of a header. -/
theorem partLength_token {s : List Char} (ht : t.Fits s) (r : List Char) :
    partLength (t.text.toList ++ r) = 0 ↔ partLength t.text.toList = 0 := by
  obtain ⟨c, u, hc⟩ := List.exists_cons_of_ne_nil ht.ne_nil
  by_cases hbracket : c = '['
  · subst hbracket
    rcases ht.quoted (ht.bracket (by rw [hc]; rfl)) with hquote | ⟨v, hv⟩
    · rw [hc] at hquote
      cases hquote
    · have hinner : ∀ r, partLength ('[' :: (v ++ ']' :: r)) = 0 ↔
          v.takeWhile (· != ']') = [] := by
        intro r
        have hle : (v.takeWhile (· != ']')).length ≤ v.length := (List.takeWhile_prefix _).length_le
        rw [partLength, if_pos rfl, takeWhile_bracket]
        simp only [List.length_append, List.length_cons]
        split
        · next h => exact iff_of_true rfl (h.resolve_right (by omega))
        · next h => exact iff_of_false (by omega) fun hnil => h (.inl hnil)
      rw [hv, List.cons_append, List.append_assoc, List.singleton_append, hinner, hinner []]
  · rw [hc, List.cons_append, partLength, partLength, if_neg hbracket, if_neg hbracket]
    split
    · exact iff_of_false (by omega) (by omega)
    · rfl

/-- After a word for a kind its last letters are not found again. -/
theorem head?_after_kind (h : Fitting (t :: rest)) (ht : IsKindWord kind t.text.toList) :
    ∀ c ∈ (charsOf rest).head?, c.toUpper ≠ 'E' := by
  intro c hc hupper
  -- the letter would go on the word
  have hpart : isWordPart c = true := by
    rcases eq_or_eq_of_toUpper hupper with rfl | rfl <;> decide
  have hletter : ∀ d ∈ t.text.toList.head?, isLetter d = true ∧ d ∉ ['N', 'n', 'X', 'x'] := by
    intro d hd
    have hdr := ht.head? [] d (by rwa [List.append_nil])
    rcases hdr with hp | hf
    · rcases eq_or_eq_of_toUpper hp with rfl | rfl <;> decide
    · rcases eq_or_eq_of_toUpper hf with rfl | rfl <;> decide
  have hstop := h.1.word hletter c hc
  rw [hpart] at hstop
  cases hstop

theorem nameHeader?_of_head? {c : Char} {s : List Char} (hp : c.toUpper ≠ 'P')
    (hf : c.toUpper ≠ 'F') : nameHeader? (c :: s) = none := by
  have hproc : afterWord? ['P', 'R', 'O', 'C'] (c :: s) = none := if_neg hp
  have hfunction : afterWord? ['F', 'U', 'N', 'C', 'T', 'I', 'O', 'N'] (c :: s) = none := if_neg hf
  rw [nameHeader?, afterKind?, hproc, hfunction]
  rfl

/-- Behind the word for a kind the name is read, where nothing but blanks stands between. -/
theorem nameHeader?_charsOf (h : Fitting (t :: (g ++ name :: rest)))
    (ht : IsKindWord kind t.text.toList) (hg : ∀ u ∈ g, u.isGap = true)
    (hname : name.kind = .identifier ∨ name.kind = .quotedIdentifier) :
    nameHeader? (charsOf (t :: (g ++ name :: rest))) =
      if isBlankGap g then
        (name? (charsOf (name :: rest))).map fun n => ⟨kind, String.ofList (tightenDots n)⟩
      else none := by
  rw [charsOf_cons, nameHeader?, afterKind?_of_head? ht (head?_after_kind h ht), Option.bind_some]
  refine bind_afterBlanks?_charsOf h.2 hg (isGap_of_name hname) fun c s hc => ?_
  have hzero : partLength (c :: s) = 0 := by
    rcases hc with rfl | rfl <;> rfl
  rw [name?_eq, if_pos hzero]
  rfl

/-! ## Lemmas: headers -/

theorem headerAt?_eq_bind (s : List Char) :
    headerAt? s = (afterVerb? s).bind fun s => (afterBlanks? s).bind nameHeader? := by
  change _ = (afterVerb? s).bind fun s => (afterBlanks? s).bind fun s => nameHeader? s
  simp only [headerAt?_eq, afterOpening?, nameHeader?, Option.bind_assoc, Option.bind_map,
    Function.comp_def]

/-- **What is read at the words of a header.** -/
theorem headerAt?_of_opens (h : Fitting (words.flatMap Spaced.tokens ++ name :: rest))
    (hwords : Opens kind words) (hgaps : ∀ w ∈ words, ∀ t ∈ w.gap, t.isGap = true)
    (hname : name.kind = .identifier ∨ name.kind = .quotedIdentifier) :
    headerAt? (charsOf (words.flatMap Spaced.tokens ++ name :: rest)) =
      if words.all (isBlankGap ·.gap) then
        (name? (charsOf (name :: rest))).map fun n => ⟨kind, String.ofList (tightenDots n)⟩
      else none := by
  obtain @⟨verb, k, hverb, hk⟩ := hwords
  obtain ⟨hgaps, hgap⟩ := List.forall_mem_append.1 hgaps
  have hgap := hgap k (by simp)
  simp only [List.flatMap_append, List.flatMap_singleton, Spaced.tokens, List.append_assoc,
    List.cons_append] at h ⊢
  have hfits := h.of_append
  have hupper : ∀ c ∈ (charsOf (k.token :: (k.gap ++ name :: rest))).head?,
      c.toUpper = 'P' ∨ c.toUpper = 'F' := by
    rw [charsOf_cons]
    exact hk.head? _
  have hword : k.token.isGap = false := by
    obtain ⟨c, s, hc⟩ := List.exists_cons_of_ne_nil hfits.1.ne_nil
    have hpf := hk.head? [] c (by rw [List.append_nil, hc]; rfl)
    have hcases : c ∈ ['P', 'p', 'F', 'f'] := by
      rcases hpf with hp | hf
      · rcases eq_or_eq_of_toUpper hp with rfl | rfl <;> decide
      · rcases eq_or_eq_of_toUpper hf with rfl | rfl <;> decide
    refine hfits.1.isGap_of_head? hc ?_ ?_
    · simp only [List.mem_cons, List.not_mem_nil, or_false] at hcases
      rcases hcases with rfl | rfl | rfl | rfl <;> decide
    · rintro (rfl | rfl) <;> revert hcases <;> decide
  have hread := bind_afterVerb?_charsOf (p := nameHeader?) h hverb hgaps hword
    (fun c hc => by rcases hupper c hc with hp | hf <;> simp [*]) ?_ ?_
  · rw [headerAt?_eq_bind, hread, nameHeader?_charsOf hfits hk hgap hname]
    cases hverbs : verb.all (isBlankGap ·.gap) <;> simp [hverbs]
  · intro c s hc
    rcases hc with rfl | rfl <;> exact nameHeader?_of_head? (by decide) (by decide)
  · intro s hs
    cases s with
    | nil => rfl
    | cons c s =>
      have ho := hs c rfl
      exact nameHeader?_of_head? (by rw [ho]; decide) (by rw [ho]; decide)

theorem isSome_name? (h : Fitting (name :: rest)) :
    (name? (charsOf (name :: rest))).isSome = true ↔ partLength name.text.toList ≠ 0 := by
  rw [charsOf_cons, name?_eq, ← not_iff_not, not_not, ← partLength_token h.1 (charsOf rest)]
  split <;> simp [*]

/-- A header is read at the words just if they are readable. -/
theorem isSome_headerAt? (h : Fitting (words.flatMap Spaced.tokens ++ name :: rest))
    (hwords : Opens kind words) (hgaps : ∀ w ∈ words, ∀ t ∈ w.gap, t.isGap = true)
    (hname : name.kind = .identifier ∨ name.kind = .quotedIdentifier) :
    (headerAt? (charsOf (words.flatMap Spaced.tokens ++ name :: rest))).isSome = true ↔
      IsReadable words name := by
  rw [headerAt?_of_opens h hwords hgaps hname, IsReadable, ← isSome_name? h.of_append,
    ← List.all_eq_true]
  split <;> simp [*]

/-- A text that ends in no word has no word going on behind it. -/
theorem inWordAfter_of_getLast? {l : List Char} (hl : l ≠ [])
    (h : ∀ c ∈ l.getLast?, isWordChar c = false) (inWord : Bool) : inWordAfter inWord l = false := by
  obtain ⟨a, c, rfl⟩ := (List.eq_nil_or_concat' l).resolve_left hl
  rw [inWordAfter_append]
  exact h c (by simp)

/-- No word goes on behind blanks and comments. -/
theorem inWordAfter_charsOf (h : Fitting (g ++ t :: rest)) (hg : ∀ u ∈ g, u.isGap = true) :
    inWordAfter false (charsOf g) = false := by
  rcases List.eq_nil_or_concat' g with rfl | ⟨a, u, rfl⟩
  · rfl
  · rw [List.append_assoc, List.singleton_append] at h
    have hfits := h.fits
    rw [charsOf_append, inWordAfter_append, charsOf_cons]
    refine inWordAfter_of_getLast? (by simp [hfits.ne_nil]) (fun c hc => ?_) _
    rw [show charsOf [] = [] from rfl, List.append_nil] at hc
    have hgap := hg u (by simp)
    simp only [Token.isGap, Bool.or_eq_true, beq_iff_eq] at hgap
    rcases hgap with hkind | hcomment
    · have hall := hfits.blank hkind
      exact isWordChar_of_isBlank (List.all_eq_true.1 hall c (List.mem_of_getLast? hc))
    · refine hfits.ends_comment hcomment ?_ c hc
      rw [charsOf_cons]
      simp [h.of_append.2.1.ne_nil]

/-- The header of a text is that behind a part in which none starts. -/
theorem headerFrom?_append {inWord : Bool} {a s : List Char}
    (h : ∀ u v, a = u ++ v → v ≠ [] → NoHeaderAt inWord u (v ++ s)) :
    headerFrom? inWord (a ++ s) = headerFrom? (inWordAfter inWord a) s := by
  induction a generalizing inWord with
  | nil => rfl
  | cons c a ih =>
    have hhere : (if inWord then none else headerAt? (c :: (a ++ s))) = none := by
      cases inWord with
      | true => rfl
      | false => exact h [] (c :: a) rfl (List.cons_ne_nil _ _) rfl
    rw [List.cons_append, headerFrom?, hhere]
    exact ih fun u v huv hv => h (c :: u) v (by rw [huv]; rfl) hv

/-- A verb starts with a letter. -/
theorem exists_cons_of_opens (hwords : Opens kind words) (s : List Token) :
    ∃ c r, charsOf (words.flatMap Spaced.tokens ++ s) = c :: r ∧ isWordChar c = true := by
  have hword : ∀ {w : Spaced} {a : Char} {l : List Char} {ws : List Spaced},
      w.token.IsWord (a :: l) → a = 'C' ∨ a = 'A' →
      ∃ c r, charsOf ((w :: ws).flatMap Spaced.tokens ++ s) = c :: r ∧ isWordChar c = true := by
    intro w a l ws hw ha
    obtain ⟨c, r, hc, hupper, -⟩ := List.map_eq_cons_iff.1 hw
    rw [List.flatMap_cons, Spaced.tokens, List.cons_append, List.cons_append, charsOf_cons, hc]
    refine ⟨c, _, rfl, ?_⟩
    rcases ha with rfl | rfl <;> rcases eq_or_eq_of_toUpper hupper with rfl | rfl <;> decide
  obtain ⟨hverb, -⟩ := hwords
  cases hverb with
  | create hc => exact hword hc (.inl rfl)
  | alter ha => exact hword ha (.inr rfl)
  | createOrAlter hc => exact hword hc (.inl rfl)

/-- The header of tokens that define a routine is read at their words, or found behind. -/
theorem headerFrom?_of_defines {tokens lead : List Token} (h : Fitting tokens)
    (hd : Defines kind tokens lead words name rest)
    (hlead : NoHeaderIn (charsOf lead) (charsOf (words.flatMap Spaced.tokens ++ name :: rest))) :
    (IsReadable words name → ∃ n, headerFrom? false (charsOf tokens) = some ⟨kind, n⟩) ∧
      (¬IsReadable words name → headerFrom? false (charsOf tokens) =
        headerFrom? true (charsOf (words.flatMap Spaced.tokens ++ name :: rest)).tail) := by
  obtain ⟨rfl, hgap, hwords, hgaps, hname⟩ := hd
  have hfits := h.of_append
  obtain ⟨c, r, hc, hcword⟩ := exists_cons_of_opens hwords (name :: rest)
  have hstart : inWordAfter false (charsOf lead) = false := by
    obtain ⟨t, s, hts⟩ : ∃ t s, words.flatMap Spaced.tokens ++ name :: rest = t :: s :=
      List.exists_cons_of_ne_nil (by simp)
    rw [hts] at h
    exact inWordAfter_charsOf h hgap
  have hread := isSome_headerAt? hfits hwords hgaps hname
  have hvalue := headerAt?_of_opens hfits hwords hgaps hname
  rw [charsOf_append, headerFrom?_append hlead, hstart]
  rw [hc] at hread hvalue ⊢
  constructor
  · intro hreadable
    rw [if_pos (List.all_eq_true.2 hreadable.1)] at hvalue
    obtain ⟨n, hn⟩ := Option.isSome_iff_exists.1 ((isSome_name? hfits.of_append).2 hreadable.2)
    rw [hn] at hvalue
    refine ⟨String.ofList (tightenDots n), ?_⟩
    rw [headerFrom?, if_neg Bool.false_ne_true, hvalue]
    rfl
  · intro hreadable
    have hnone : headerAt? (c :: r) = none := by
      rwa [← Option.not_isSome_iff_eq_none, hread]
    rw [headerFrom?, if_neg Bool.false_ne_true, hnone, hcword]
    rfl

/-! ## Top theorem (proved from the lemmas above) -/

/-- **Which definitions are found.** Of a batch whose tokens start with the words of a header and a
name, and before which no header starts in a comment, the routine is among those of the script just
where the words are readable; elsewhere the batch has the header that is found further behind. -/
theorem routine_of_defines (path : String) {script batch : String} {index : Nat} {lead : List Token}
    (hbatch : (splitScript script)[index]? = some batch) (hlex : (lex batch).diagnostic = none)
    (hd : Defines kind (lex batch).tokens lead words name rest)
    (hlead : NoHeaderIn (charsOf lead) (charsOf (words.flatMap Spaced.tokens ++ name :: rest))) :
    (IsReadable words name → ∃ r ∈ routinesOfScript path script,
        r.objectId = objectIdOf path index ∧ r.kind = kind ∧
          r.definition = String.ofList (trimBlank batch.toList)) ∧
      (¬IsReadable words name → header? batch =
        headerFrom? true (charsOf (words.flatMap Spaced.tokens ++ name :: rest)).tail) := by
  obtain ⟨hfitting, hchars⟩ := fitting_tokens hlex
  obtain ⟨hfound, hnot⟩ := headerFrom?_of_defines hfitting hd hlead
  rw [hchars] at hfound hnot
  refine ⟨fun hreadable => ?_, hnot⟩
  obtain ⟨n, hn⟩ := hfound hreadable
  rw [splitScript, List.getElem?_map] at hbatch
  obtain ⟨b, hb, rfl⟩ := Option.map_eq_some_iff.1 hbatch
  rw [String.toList_ofList] at hn ⊢
  refine ⟨⟨objectIdOf path index, n, kind, String.ofList (trimBlank b)⟩, ?_, rfl, rfl, rfl⟩
  refine List.mem_filterMap.2 ⟨(b, index), ?_, ?_⟩
  · exact List.mem_zipIdx_iff_getElem?.2 hb
  · simp only [routineOfBatch?, hn]
    rfl

theorem noHeaderIn_of_blank {a : List Char} (ha : isAllBlank a = true) (s : List Char) :
    NoHeaderIn a s := by
  rintro u v rfl hv -
  obtain ⟨c, v, rfl⟩ := List.exists_cons_of_ne_nil hv
  rw [isAllBlank_append, isAllBlank_cons, Bool.and_eq_true, Bool.and_eq_true] at ha
  have hno : ∀ a, isBlank a = false → ∀ d ∈ (c :: (v ++ s)).head?, d.toUpper ≠ a := by
    intro a hblank d hd hupper
    obtain rfl := Option.some.inj hd
    rw [isBlank_of_toUpper hupper hblank] at ha
    cases ha.2.1
  rw [List.cons_append, headerAt?_eq_bind, afterVerb?, afterWord?_of_head? (hno 'C' (by decide)),
    afterWord?_of_head? (hno 'A' (by decide))]
  rfl

/-- The second batch of a script, with three words and a name in brackets. -/
theorem routine_of_defines_sample :
    ∃ lead words name rest,
      (splitScript "grant x\nGO\n create or  alter\tproc [p q] as")[1]? =
          some " create or  alter\tproc [p q] as" ∧
        (lex " create or  alter\tproc [p q] as").diagnostic = none ∧
        Defines .procedure (lex " create or  alter\tproc [p q] as").tokens lead words name rest ∧
        NoHeaderIn (charsOf lead) (charsOf (words.flatMap Spaced.tokens ++ name :: rest)) ∧
        IsReadable words name ∧
        ∃ r ∈ routinesOfScript "a.sql" "grant x\nGO\n create or  alter\tproc [p q] as",
          r.objectId = objectIdOf "a.sql" 1 ∧ r.kind = .procedure ∧
            r.definition = "create or  alter\tproc [p q] as" := by
  have hbatch : (splitScript "grant x\nGO\n create or  alter\tproc [p q] as")[1]? =
      some " create or  alter\tproc [p q] as" := by decide +kernel
  have hlex : (lex " create or  alter\tproc [p q] as").diagnostic = none := by decide +kernel
  have hd : Defines .procedure (lex " create or  alter\tproc [p q] as").tokens [⟨.blank, " "⟩]
      ([⟨⟨.create, "create"⟩, [⟨.blank, " "⟩]⟩, ⟨⟨.reserved, "or"⟩, [⟨.blank, " "⟩, ⟨.blank, " "⟩]⟩,
        ⟨⟨.reserved, "alter"⟩, [⟨.blank, "\t"⟩]⟩] ++ [⟨⟨.procedure, "proc"⟩, [⟨.blank, " "⟩]⟩])
      ⟨.quotedIdentifier, "[p q]"⟩ [⟨.blank, " "⟩, ⟨.as, "as"⟩] :=
    ⟨by decide +kernel, by decide, .mk (.createOrAlter rfl rfl rfl) (.proc rfl), by decide, .inr rfl⟩
  have hlead : ∀ s, NoHeaderIn (charsOf [⟨.blank, " "⟩]) s := noHeaderIn_of_blank (by decide)
  obtain ⟨r, hr, hid, hkind, hdefinition⟩ :=
    (routine_of_defines "a.sql" hbatch hlex hd (hlead _)).1 ⟨by decide, by decide⟩
  refine ⟨_, _, _, _, hbatch, hlex, hd, hlead _, ⟨by decide, by decide⟩, r, hr, hid, hkind, ?_⟩
  rw [hdefinition]
  decide +kernel

/-- Not every definition is found: a name between double quotes is none in a header. -/
theorem not_forall_routine_of_defines :
    (¬∀ (path script batch : String) (index : Nat) (kind : RoutineKind) (lead : List Token)
        (words : List Spaced) (name : Token) (rest : List Token),
        (splitScript script)[index]? = some batch → (lex batch).diagnostic = none →
          Defines kind (lex batch).tokens lead words name rest →
            ∃ r ∈ routinesOfScript path script,
              r.objectId = objectIdOf path index ∧ r.kind = kind) ∧
      routinesOfScript "a.sql" "create proc \"p\" @a int as" = [] := by
  have hnone : routinesOfScript "a.sql" "create proc \"p\" @a int as" = [] := by decide +kernel
  refine ⟨fun h => ?_, hnone⟩
  have hd : Defines .procedure (lex "create proc \"p\" @a int as").tokens []
      ([⟨⟨.create, "create"⟩, [⟨.blank, " "⟩]⟩] ++ [⟨⟨.procedure, "proc"⟩, [⟨.blank, " "⟩]⟩])
      ⟨.quotedIdentifier, "\"p\""⟩ [⟨.blank, " "⟩, ⟨.localVariable, "@a"⟩, ⟨.blank, " "⟩,
        ⟨.identifier, "int"⟩, ⟨.blank, " "⟩, ⟨.as, "as"⟩] :=
    ⟨by decide +kernel, by decide, .mk (.create rfl) (.proc rfl), by decide, .inr rfl⟩
  obtain ⟨r, hr, -⟩ := h "a.sql" "create proc \"p\" @a int as" "create proc \"p\" @a int as" 0
    .procedure _ _ _ _ (by decide +kernel) (by decide +kernel) hd
  rw [hnone] at hr
  cases hr

end RoutineParams
