import RoutineParams.Proofs.Closers
import RoutineParams.Proofs.Faults

/-!
# Across the end of a line

A lexeme that goes on over the end of a line either ends with the mark that closes it, and has no
end if the text is cut off there, or it is a word of a sign that the newline follows at once, and is
a word again without what follows.

    a lexeme over the end of a line → Crosses c t u form, for c :: t up to there and u from there
                                                                                (crosses_of_lexeme)
-/

namespace RoutineParams

/-! ## Definitions -/

/-- Whether tokens of a kind are closed by a mark, wherever it stands. Quotes between dollar signs
have no kind of their own. -/
def Kind.isEnclosed : Kind → Bool
  | string | nationalString | hex | quotedIdentifier | blockComment | unknown => true
  | _ => false

/-- Whether what closes tokens of a kind is a quote or a bracket. -/
def Kind.isQuoted : Kind → Bool
  | string | nationalString | hex | quotedIdentifier => true
  | _ => false

/-- The last characters of the marks that close a lexeme. -/
def closers : List Char := ['\'', '"', ']', '/', '$']

/-- The signs that are words with the newline behind them. -/
def brokenSigns : List (List Char) := [['@', '\n'], ['#', '\n'], ['@', '@', '\n']]

/-- What a lexeme `c :: (t ++ u)` is of which `c :: t` is a text of whole lines. -/
inductive Crosses (c : Char) (t u : List Char) : Form → Prop
  | enclosed {form : Form} {f : LexFailure} {d : Char} :
      form.kind.isEnclosed = true → lexeme c t = .error f →
        f.fault.isAtQuote = form.kind.isQuoted → u.getLast? = some d → d ∈ closers →
          Crosses c t u form
  | word :
      c :: t ∈ brokenSigns → lexeme c t = .ok ⟨.word (c :: t), t.length⟩ →
        (∀ d ∈ u, isWordPart d = true) → Crosses c t u (.word (c :: (t ++ u)))

/-! ## Lemmas: runs over the end of a line -/

section
variable {t u r : List Char} (ht : EndsLine t) (hu : u ≠ [])
include ht

theorem countWhile_append_line {p : Char → Bool} (hp : p '\n' = false) (hne : t ≠ [])
    (s : List Char) : countWhile p (t ++ s) < t.length := by
  obtain ⟨q, rfl⟩ := ht.exists_newline hne
  have hle := countWhile_le p q
  rw [List.append_assoc, List.singleton_append,
    countWhile_append_of_stop (stops_of_newline rfl hp), List.length_append, List.length_singleton]
  omega

/-- A number ends in the line in which it starts. -/
theorem numberLexeme_extra_lt_line (c : Char) (hne : t ≠ []) (s : List Char) :
    (numberLexeme (c :: (t ++ s))).extra < t.length := by
  obtain ⟨q, rfl⟩ := ht.exists_newline hne
  have hle := numberLexeme_extra_le c q
  rw [List.append_assoc, List.singleton_append, ← List.cons_append,
    numberLexeme_append_newline rfl, List.length_append, List.length_singleton]
  omega

include hu

/-- A quoted text behind a letter that goes on over the end of a line has no end before it. -/
theorem crosses_quoted_letter {form : Form} {fault : LexFault} {escape : Option Char} {l : Lexeme}
    (hne : t ≠ []) (h : quoted form fault escape '\'' 1 ((t ++ (u ++ r)).drop 1) = .ok l)
    (hl : l.extra = (t ++ u).length) :
    l.form = form ∧ quoted form fault escape '\'' 1 (t.drop 1) = .error ⟨fault, 1⟩ ∧
      u.getLast? = some '\'' := by
  obtain ⟨d, t, rfl⟩ := List.exists_cons_of_ne_nil hne
  refine crosses_quoted (t := t) (by decide) ht.of_cons hu h ?_
  rw [hl, List.cons_append, List.length_cons]
  omega

/-- A run that a newline stops does not go on over the end of a line. -/
theorem countWhile_crosses {p : Char → Bool} (hp : p '\n' = false)
    (h : countWhile p (t ++ (u ++ r)) = (t ++ u).length) :
    t = [] ∧ (u ++ r).takeWhile p = u ∧ ∀ d ∈ u, p d = true := by
  have hpos := List.length_pos_iff.2 hu
  rw [List.length_append] at h
  have hnil : t = [] := by
    cases ht' : t with
    | nil => rfl
    | cons c t' =>
      have := countWhile_append_line ht hp (by rw [ht']; simp) (u ++ r)
      omega
  subst hnil
  have hrun : (u ++ r).takeWhile p = u := by
    rw [← take_countWhile]
    simp only [List.nil_append, List.length_nil, Nat.zero_add] at h
    rw [h, List.take_left]
  refine ⟨rfl, hrun, fun d hd => ?_⟩
  rw [← hrun] at hd
  exact List.all_eq_true.1 List.all_takeWhile d hd

theorem crosses_dollar {l : Lexeme} (hne : t ≠ []) (h : dollarLexeme (t ++ (u ++ r)) = .ok l)
    (hl : l.extra = (t ++ u).length) :
    l.form = .sign .unknown ∧ (∃ f, dollarLexeme t = .error f) ∧ u.getLast? = some '$' := by
  have hpos := List.length_pos_iff.2 hu
  obtain ⟨q, rfl⟩ := ht.exists_newline hne
  have hstop : (isAlphanumeric '\n' || '\n' == '_') = false := by decide
  have hname : ∀ s : List Char, ((q ++ ['\n'] ++ s).takeWhile fun c => isAlphanumeric c || c == '_') =
      q.takeWhile fun c => isAlphanumeric c || c == '_' := by
    intro s
    rw [List.append_assoc]
    exact takeWhile_append_of_stop (stops_of_newline rfl hstop) q
  have hle := (List.takeWhile_prefix (l := q) fun c => isAlphanumeric c || c == '_').length_le
  have hnameOwn := hname []
  rw [List.append_nil] at hnameOwn
  rw [dollarLexeme] at h
  simp only [hname] at h
  simp only [dollarLexeme, hnameOwn]
  generalize q.takeWhile (fun c => isAlphanumeric c || c == '_') = name at *
  rw [List.drop_append_of_le_length (by simp; omega)] at h
  obtain ⟨d, body, hbody⟩ : ∃ d body, (q ++ ['\n']).drop name.length = d :: body := by
    refine List.exists_cons_of_ne_nil fun hnil => ?_
    have := congrArg List.length hnil
    simp at this
    omega
  have hlength := congrArg List.length hbody
  rw [List.length_drop, List.length_cons] at hlength
  rw [List.length_append, List.length_append, List.length_singleton] at hl
  rw [List.length_append, List.length_singleton] at hlength
  rw [hbody, List.cons_append] at h
  rw [hbody]
  by_cases hd : d = '$'
  · subst hd
    simp only at h ⊢
    cases hcount : countThrough ('$' :: name ++ ['$']) (name.length + 1) (body ++ (u ++ r)) with
    | none => rw [hcount] at h; cases h
    | some n =>
      rw [hcount] at h
      obtain rfl := Except.ok.inj h
      simp only at hl
      obtain ⟨a, b, hs, hn⟩ := exists_of_countThrough hcount
      have hshort : countThrough ('$' :: name ++ ['$']) (name.length + 1) body = none := by
        cases hk : countThrough ('$' :: name ++ ['$']) (name.length + 1) body with
        | none => rfl
        | some k =>
          have hbound := countThrough_le _ _ _ _ hk
          have := Option.some.inj ((countThrough_append (u ++ r) hk).symm.trans hcount)
          omega
      have hs' : body ++ (u ++ r) = (a ++ '$' :: name) ++ '$' :: b := by
        rw [hs]
        simp
      refine ⟨rfl, ?_, getLast?_of_close hs' ?_ hu⟩
      · rw [hshort]
        exact ⟨_, rfl⟩
      · simp only [List.length_append, List.length_cons, List.length_nil] at hn ⊢
        omega
  · exfalso
    split at h
    · next b hb => exact hd (List.cons.inj hb).1
    · obtain rfl := Except.ok.inj h
      simp only at hl
      omega

theorem crosses_hash (hne : t ≠ [])
    (hl : (hashLexeme (t ++ (u ++ r))).extra = (t ++ u).length) :
    '#' :: t ∈ brokenSigns ∧ (hashLexeme (t ++ (u ++ r))).form = .word ('#' :: (t ++ u)) ∧
      hashLexeme t = ⟨.word ('#' :: t), t.length⟩ ∧ ∀ d ∈ u, isWordPart d = true := by
  have hpos := List.length_pos_iff.2 hu
  obtain ⟨d, t, rfl⟩ := List.exists_cons_of_ne_nil hne
  rw [List.cons_append] at hl ⊢
  rw [hashLexeme] at hl
  simp only [List.length_append, List.length_cons] at hl
  by_cases h1 : d = ' '
  · rw [if_pos h1] at hl
    simp only at hl
    omega
  rw [if_neg h1] at hl
  by_cases h2 : d = '-'
  · rw [if_pos h2] at hl
    simp only at hl
    omega
  rw [if_neg h2] at hl
  by_cases h3 : d = '>'
  · -- the newline is not the sign, so more than two characters would follow
    exfalso
    rw [if_pos h3] at hl
    have hlong : t ≠ [] := by
      rintro rfl
      have := ht d rfl
      rw [h3] at this
      cases this
    have := List.length_pos_iff.2 hlong
    simp only at hl
    split at hl <;> omega
  rw [if_neg h3] at hl
  simp only at hl
  obtain ⟨rfl, hrun, hparts⟩ := countWhile_crosses ht.of_cons hu (p := isWordPart) (by decide)
    (r := r) (by simp only [List.length_append]; omega)
  obtain rfl : d = '\n' := ht d rfl
  rw [hashLexeme, if_neg h1, if_neg h2, if_neg h3, List.nil_append, hrun, hashLexeme, if_neg h1,
    if_neg h2, if_neg h3]
  exact ⟨by decide, rfl, rfl, hparts⟩

theorem crosses_at (hne : t ≠ [])
    (hl : (atLexeme (t ++ (u ++ r))).extra = (t ++ u).length) :
    '@' :: t ∈ brokenSigns ∧ (atLexeme (t ++ (u ++ r))).form = .word ('@' :: (t ++ u)) ∧
      atLexeme t = ⟨.word ('@' :: t), t.length⟩ ∧ ∀ d ∈ u, isWordPart d = true := by
  have hpos := List.length_pos_iff.2 hu
  obtain ⟨d, t, rfl⟩ := List.exists_cons_of_ne_nil hne
  rw [List.cons_append] at hl ⊢
  unfold atLexeme at hl
  simp only [List.length_append, List.length_cons] at hl
  by_cases h1 : d = ' ' ∨ d = '\'' ∨ d = '"' ∨ d = '\x60'
  · rw [if_pos h1] at hl
    simp only at hl
    omega
  rw [if_neg h1] at hl
  by_cases h2 : d = '>' ∨ d = '?'
  · rw [if_pos h2] at hl
    simp only at hl
    omega
  rw [if_neg h2] at hl
  by_cases h3 : d = '@'
  · obtain ⟨e, t, rfl⟩ : ∃ e t', t = e :: t' := by
      refine List.exists_cons_of_ne_nil ?_
      rintro rfl
      have := ht d rfl
      rw [h3] at this
      cases this
    simp only [if_pos h3, List.cons_append] at hl
    by_cases h4 : e = ' '
    · rw [if_pos h4] at hl
      simp only [List.length_cons] at hl
      omega
    rw [if_neg h4] at hl
    simp only [List.length_cons] at hl
    obtain ⟨rfl, hrun, hparts⟩ := countWhile_crosses ht.of_cons.of_cons hu (p := isWordPart)
      (by decide) (r := r) (by simp only [List.length_append]; omega)
    subst h3
    obtain rfl : e = '\n' := ht e rfl
    refine ⟨by decide, ?_⟩
    simp only [atLexeme, if_neg h1, if_neg h2, if_pos, if_neg h4, List.nil_append, hrun,
      List.cons_append, true_and]
    exact ⟨rfl, hparts⟩
  · rw [if_neg h3] at hl
    simp only at hl
    obtain ⟨rfl, hrun, hparts⟩ := countWhile_crosses ht.of_cons hu (p := isWordPart) (by decide)
      (r := r) (by simp only [List.length_append]; omega)
    have hword : ∀ s, atLexeme (d :: s) =
        ⟨.word ('@' :: d :: s.takeWhile isWordPart), 1 + countWhile isWordPart s⟩ := by
      intro s
      unfold atLexeme
      simp only [if_neg h1, if_neg h2, if_neg h3]
    obtain rfl : d = '\n' := ht d rfl
    rw [hword, hword, List.nil_append, hrun]
    exact ⟨by decide, rfl, rfl, hparts⟩

end

theorem newline_not_mem_signs : ∀ sign ∈ signs, '\n' ∉ sign.1 := by decide

theorem not_crosses_sign {t u r : List Char} {c : Char} {l : Lexeme} (ht : EndsLine t)
    (hne : t ≠ []) (hu : u ≠ []) (h : signLexeme? (c :: (t ++ (u ++ r))) = some l) :
    l.extra ≠ (t ++ u).length := by
  intro hl
  have hmem : '\n' ∈ t := by
    obtain ⟨q, rfl⟩ := ht.exists_newline hne
    simp
  obtain ⟨sign, hfind, rfl⟩ := Option.map_eq_some_iff.1 h
  have hsign := List.mem_of_find?_eq_some hfind
  have hfound := List.find?_some hfind
  have hprefix := List.isPrefixOf_iff_prefix.1 hfound
  have hone := (length_sign sign hsign).1
  simp only [List.length_append] at hl
  have hlong : c :: t <+: sign.1 := by
    refine List.prefix_of_prefix_length_le ?_ hprefix ?_
    · exact ⟨u ++ r, rfl⟩
    · rw [List.length_cons]
      have := List.length_pos_iff.2 hu
      omega
  exact newline_not_mem_signs sign hsign (hlong.subset (List.mem_cons_of_mem c hmem))

theorem ne_nil_of_lexeme {c : Char} {t u r : List Char} {l : Lexeme}
    (h : lexeme c (t ++ (u ++ r)) = .ok l) (hl : l.extra = (t ++ u).length)
    (hline : EndsLine (c :: t)) (hu : u ≠ []) : t ≠ [] := by
  rintro rfl
  obtain rfl : c = '\n' := hline c rfl
  rw [lexeme_blank (by decide) (by simp)] at h
  obtain rfl := Except.ok.inj h
  exact hu (List.eq_nil_of_length_eq_zero hl.symm)

/-! ## Top theorem (proved from the lemmas above) -/

/-- **A lexeme that goes on over the end of a line** is closed by a mark, or is a word in both. -/
theorem crosses_of_lexeme {c : Char} {t u r : List Char} {l : Lexeme}
    (h : lexeme c (t ++ (u ++ r)) = .ok l) (hl : l.extra = (t ++ u).length)
    (hline : EndsLine (c :: t)) (hu : u ≠ []) : Crosses c t u l.form := by
  have hne := ne_nil_of_lexeme h hl hline hu
  obtain ⟨d, t, rfl⟩ := List.exists_cons_of_ne_nil hne
  have ht : EndsLine (d :: t) := hline.of_cons
  have hpos := List.length_pos_iff.2 hu
  have hlength := hl
  rw [List.length_append] at hlength
  -- the first lexeme of the text up to the end of the line is read in the same way
  cases lexeme_eq_iff.1 h with
  | lineBreak _ hr =>
    obtain rfl := Except.ok.inj hr
    simp only [List.length_cons] at hlength
    split at hlength <;> omega
  | blank _ _ hr =>
    obtain rfl := Except.ok.inj hr
    simp only at hlength
    omega
  | national hc hs hr =>
    obtain ⟨hform, herror, hlast⟩ := crosses_quoted_letter ht hu hne hr hl
    exact .enclosed (by rw [hform]; rfl) (lexeme_eq_iff.2 (.national hc hs herror))
      (by rw [hform]; rfl) hlast (by decide)
  | hexadecimal hc hs hr =>
    obtain ⟨hform, herror, hlast⟩ := crosses_quoted_letter ht hu hne hr hl
    exact .enclosed (by rw [hform]; rfl) (lexeme_eq_iff.2 (.hexadecimal hc hs herror))
      (by rw [hform]; rfl) hlast (by decide)
  | string hc hr =>
    obtain ⟨hform, herror, hlast⟩ := crosses_quoted (by decide) ht hu hr (by omega)
    exact .enclosed (by rw [hform]; rfl) (lexeme_eq_iff.2 (.string hc herror)) (by rw [hform]; rfl)
      hlast (by decide)
  | doubleQuoted hc hr =>
    obtain ⟨hform, herror, hlast⟩ := crosses_quoted (by decide) ht hu hr (by omega)
    exact .enclosed (by rw [hform]; rfl) (lexeme_eq_iff.2 (.doubleQuoted hc herror))
      (by rw [hform]; rfl) hlast (by decide)
  | bracketed hc hr =>
    obtain ⟨hform, herror, hlast⟩ := crosses_quoted (by decide) ht hu hr (by omega)
    exact .enclosed (by rw [hform]; rfl) (lexeme_eq_iff.2 (.bracketed hc herror))
      (by rw [hform]; rfl) hlast (by decide)
  | number _ hr =>
    obtain rfl := Except.ok.inj hr
    have hlt := numberLexeme_extra_lt_line ht c hne (u ++ r)
    omega
  | lineComment _ _ hr =>
    obtain rfl := Except.ok.inj hr
    have hlt := countWhile_append_line ht (p := (· != '\n')) (by decide) hne (u ++ r)
    simp only at hlength
    split at hlength <;> omega
  | blockComment hc hs hn hr =>
    obtain rfl := Except.ok.inj hr
    simp only [List.length_cons] at hlength
    obtain ⟨hnone, hlast⟩ := crosses_comment (t := t) hu hn (by rw [List.length_append]; omega)
    exact .enclosed rfl (lexeme_eq_iff.2 (.openComment hc hs hnone rfl)) rfl hlast (by decide)
  | openComment _ _ _ hr => cases hr
  | numberSign hc hr =>
    obtain rfl := Except.ok.inj hr
    obtain ⟨hsign, hform, hword, hparts⟩ := crosses_hash ht hu hne hl
    rw [hform, ← hc]
    exact .word (hc ▸ hsign) (lexeme_eq_iff.2 (.numberSign hc (by rw [hword, hc]))) hparts
  | atSign hc hr =>
    obtain rfl := Except.ok.inj hr
    obtain ⟨hsign, hform, hword, hparts⟩ := crosses_at ht hu hne hl
    rw [hform, ← hc]
    exact .word (hc ▸ hsign) (lexeme_eq_iff.2 (.atSign hc (by rw [hword, hc]))) hparts
  | dollarSign hc hr =>
    obtain ⟨hform, ⟨f, herror⟩, hlast⟩ := crosses_dollar ht hu hne hr hl
    exact .enclosed (by rw [hform]; rfl) (lexeme_eq_iff.2 (.dollarSign hc herror))
      (by rw [hform]; exact (offset_of_dollarLexeme_error herror).1) hlast (by decide)
  | questionMark _ hr =>
    obtain rfl := Except.ok.inj hr
    exact absurd (countWhile_crosses ht hu (by decide +kernel) hl).1 hne
  | word _ _ hr =>
    obtain rfl := Except.ok.inj hr
    exact absurd (countWhile_crosses ht hu (by decide) hl).1 hne
  | sign _ _ _ _ _ _ hr =>
    obtain rfl := Except.ok.inj hr
    cases hsign : signLexeme? (c :: (d :: t ++ (u ++ r))) with
    | none =>
      rw [hsign] at hlength
      simp only [Option.getD_none] at hlength
      omega
    | some l =>
      rw [hsign] at hl
      exact absurd hl (not_crosses_sign ht hne hu hsign)

end RoutineParams
