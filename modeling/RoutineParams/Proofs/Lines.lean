import RoutineParams.Batch

/-!
# Batches by lines

A text falls into lines, each with the newline that ends it; what follows the last newline is a line
without one. The batches of a script are what lies between the lines that separate them, as the
lines of a text are what lies between its newlines.

    EndsLine a → linesOf (a ++ b) = linesOf a ++ linesOf b                         (linesOf_append)
    batches script = stretches script without those of blanks                          (batches_eq)
    stretches (a ++ (line ++ b)) = stretches a ++ stretches b for a separator line (stretches_append)
-/

namespace RoutineParams

/-! ## Definitions -/

/-- The lines of a text, each with the newline that ends it. -/
def linesOf : List Char → List (List Char)
  | [] => []
  | c :: s =>
    if c = '\n' then [c] :: linesOf s
    else
      match linesOf s with
      | [] => [[c]]
      | line :: lines => (c :: line) :: lines

/-- A text of whole lines: nothing follows its last newline. -/
def EndsLine (s : List Char) : Prop := ∀ c ∈ s.getLast?, c = '\n'

/-- Lines as a text has them: only the last one may lack its newline, and then it is not empty. -/
inductive AreLines : List (List Char) → Prop
  | nil : AreLines []
  | last {line : List Char} : '\n' ∉ line → line ≠ [] → AreLines [line]
  | cons {line : List Char} {lines : List (List Char)} :
      '\n' ∉ line → AreLines lines → AreLines ((line ++ ['\n']) :: lines)

/-- A line that is whole: it ends with the only newline in it. -/
def IsLine (line : List Char) : Prop := ∃ l, '\n' ∉ l ∧ line = l ++ ['\n']

/-- The texts between the separators of a script, empty ones included. -/
def stretches (script : List Char) : List (List Char) :=
  ((linesOf script).splitOnP isSeparator).map List.flatten

/-- No line of a text is a separator. -/
def HoldsNoSeparator (s : List Char) : Prop := ∀ line ∈ linesOf s, isSeparator line = false

/-! ## Lemmas: lines -/

theorem linesOf_line {line : List Char} (h : '\n' ∉ line) (s : List Char) :
    linesOf (line ++ '\n' :: s) = (line ++ ['\n']) :: linesOf s := by
  induction line with
  | nil => rw [List.nil_append, linesOf, if_pos rfl, List.nil_append]
  | cons c line ih =>
    have hc := List.ne_of_not_mem_cons h
    have hline := List.not_mem_of_not_mem_cons h
    rw [List.cons_append, linesOf, if_neg (Ne.symm hc), ih hline]
    rfl

theorem linesOf_last {line : List Char} (h : '\n' ∉ line) (hne : line ≠ []) :
    linesOf line = [line] := by
  induction line with
  | nil => exact absurd rfl hne
  | cons c line ih =>
    have hc := List.ne_of_not_mem_cons h
    have hline := List.not_mem_of_not_mem_cons h
    rw [linesOf, if_neg (Ne.symm hc)]
    cases line with
    | nil => rfl
    | cons d line => rw [ih hline (List.cons_ne_nil d line)]

theorem areLines_linesOf (s : List Char) : AreLines (linesOf s) := by
  induction s with
  | nil => exact .nil
  | cons c s ih =>
    rw [linesOf]
    split
    · next hc =>
      subst hc
      exact .cons List.not_mem_nil ih
    · next hc =>
      generalize linesOf s = lines at ih
      cases ih with
      | nil => exact .last (by simpa using Ne.symm hc) (List.cons_ne_nil c [])
      | last hline hne => exact .last (List.not_mem_cons_of_ne_of_not_mem (Ne.symm hc) hline) (by simp)
      | @cons line lines hline hlines =>
        have hcons := AreLines.cons (List.not_mem_cons_of_ne_of_not_mem (Ne.symm hc) hline) hlines
        exact hcons

/-- Lines are those of the text that they make up. -/
theorem linesOf_flatten {lines : List (List Char)} (h : AreLines lines) :
    linesOf lines.flatten = lines := by
  induction h with
  | nil => rfl
  | last hline hne => rw [List.flatten_singleton, linesOf_last hline hne]
  | cons hline _ ih =>
    rw [List.flatten_cons, List.append_assoc, List.singleton_append, linesOf_line hline, ih]

theorem flatten_linesOf (s : List Char) : (linesOf s).flatten = s := by
  induction s with
  | nil => rfl
  | cons c s ih =>
    rw [linesOf]
    split
    · rw [List.flatten_cons, ih, List.singleton_append]
    · cases hs : linesOf s with
      | nil =>
        rw [hs] at ih
        rw [← ih]
        rfl
      | cons line lines =>
        rw [hs] at ih
        rw [← ih]
        rfl

theorem endsLine_nil : EndsLine [] := by simp [EndsLine]

theorem endsLine_concat (s : List Char) : EndsLine (s ++ ['\n']) := by simp [EndsLine]

theorem EndsLine.of_cons {c : Char} {s : List Char} (h : EndsLine (c :: s)) : EndsLine s := by
  cases s with
  | nil => exact endsLine_nil
  | cons d s => exact fun e he => h e (by rwa [List.getLast?_cons_cons])

theorem EndsLine.append_left {c : Char} {t : List Char} (h : EndsLine (c :: t)) (a : List Char) :
    EndsLine (a ++ c :: t) := by
  intro d hd
  rw [List.getLast?_append, List.getLast?_cons, Option.some_or, ← List.getLast?_cons] at hd
  exact h d hd

/-- Whole lines that are not empty have a newline at the end. -/
theorem EndsLine.exists_newline {t : List Char} (ht : EndsLine t) (hne : t ≠ []) :
    ∃ q, t = q ++ ['\n'] := by
  refine ⟨t.dropLast, ?_⟩
  have hlast := ht _ (List.getLast?_eq_some_getLast hne)
  rw [← hlast, List.dropLast_concat_getLast hne]

/-- The lines of whole lines and of what follows them. -/
theorem linesOf_append {a : List Char} (h : EndsLine a) (b : List Char) :
    linesOf (a ++ b) = linesOf a ++ linesOf b := by
  induction a with
  | nil => rfl
  | cons c a ih =>
    cases a with
    | nil =>
      obtain rfl : c = '\n' := h c rfl
      rfl
    | cons d a =>
      have hrest := ih h.of_cons
      rw [List.cons_append, linesOf, linesOf, hrest]
      split
      · rfl
      · cases hlines : linesOf (d :: a) with
        | nil =>
          have hflatten := flatten_linesOf (d :: a)
          rw [hlines] at hflatten
          cases hflatten
        | cons line lines => rfl

/-- A text is whole lines and a rest without a newline. -/
theorem exists_endsLine_append (s : List Char) :
    ∃ a line, s = a ++ line ∧ EndsLine a ∧ '\n' ∉ line := by
  induction s with
  | nil => exact ⟨[], [], rfl, endsLine_nil, List.not_mem_nil⟩
  | cons c s ih =>
    obtain ⟨a, line, rfl, ha, hline⟩ := ih
    cases a with
    | nil =>
      by_cases hc : c = '\n'
      · subst hc
        exact ⟨['\n'], line, rfl, endsLine_concat [], hline⟩
      · exact ⟨[], c :: line, rfl, ha, List.not_mem_cons_of_ne_of_not_mem (Ne.symm hc) hline⟩
    | cons d a =>
      refine ⟨c :: d :: a, line, rfl, fun e he => ha e ?_, hline⟩
      rwa [List.getLast?_cons_cons] at he

section
variable {line b : List Char} {lines pre post : List (List Char)}

theorem areLines_append (h : ∀ line ∈ pre, IsLine line) (hpost : AreLines post) :
    AreLines (pre ++ post) := by
  induction pre with
  | nil => exact hpost
  | cons line pre ih =>
    obtain ⟨l, hl, rfl⟩ := h line List.mem_cons_self
    exact .cons hl (ih fun m hm => h m (List.mem_cons_of_mem _ hm))

/-- Lines before others are whole. -/
theorem AreLines.of_append (h : AreLines (pre ++ line :: post)) :
    (∀ m ∈ pre, IsLine m) ∧ AreLines (line :: post) := by
  induction pre with
  | nil => exact ⟨fun m hm => absurd hm List.not_mem_nil, h⟩
  | cons m pre ih =>
    have hrest : IsLine m ∧ AreLines (pre ++ line :: post) := by
      rw [List.cons_append] at h
      generalize hlines : pre ++ line :: post = lines at h
      cases h with
      | last => simp at hlines
      | cons hl hlines => exact ⟨⟨_, hl, rfl⟩, hlines⟩
    obtain ⟨hpre, hpost⟩ := ih hrest.2
    exact ⟨List.forall_mem_cons.2 ⟨hrest.1, hpre⟩, hpost⟩

/-- A first line that ends with a newline is whole. -/
theorem AreLines.of_endsLine (h : AreLines (line :: post)) (hline : EndsLine line) :
    IsLine line ∧ AreLines post := by
  cases h with
  | last hno hne =>
    have hmem := List.getLast_mem hne
    rw [hline _ (List.getLast_mem_getLast? hne)] at hmem
    exact absurd hmem hno
  | cons hno hpost => exact ⟨⟨_, hno, rfl⟩, hpost⟩

theorem AreLines.tail (h : AreLines (line :: lines)) : AreLines lines := by
  cases h with
  | last => exact .nil
  | cons _ hlines => exact hlines

theorem endsLine_flatten (h : ∀ line ∈ lines, IsLine line) : EndsLine lines.flatten := by
  rcases List.eq_nil_or_concat lines with rfl | ⟨pre, line, rfl⟩
  · exact endsLine_nil
  · obtain ⟨l, -, rfl⟩ := h line (by simp)
    rw [List.concat_eq_append, List.flatten_append, List.flatten_singleton, ← List.append_assoc]
    exact endsLine_concat _

theorem IsLine.linesOf_append (h : IsLine line) (b : List Char) :
    linesOf (line ++ b) = line :: linesOf b := by
  obtain ⟨l, hl, rfl⟩ := h
  rw [List.append_assoc]
  exact linesOf_line hl b

/-- A first line is whole, or nothing follows it. -/
theorem isLine_of_linesOf (h : linesOf (line ++ b) = line :: linesOf b) (hb : b ≠ []) :
    IsLine line := by
  have hare := areLines_linesOf (line ++ b)
  rw [h] at hare
  generalize hlines : linesOf b = lines at hare
  cases hare with
  | last =>
    have hflatten := flatten_linesOf b
    rw [hlines] at hflatten
    exact absurd hflatten.symm hb
  | cons hl _ => exact ⟨_, hl, rfl⟩

end

/-! ## Lemmas: separators -/

@[simp] theorem isSeparator_nil : isSeparator [] = false := rfl

theorem stretches_eq_singleton {s : List Char} (h : HoldsNoSeparator s) : stretches s = [s] := by
  rw [stretches, List.splitOnP_eq_singleton h, List.map_singleton, flatten_linesOf]

theorem stretches_ne_nil (s : List Char) : stretches s ≠ [] := by
  simp [stretches]

/-- What lies before a separator and what lies after it have nothing to do with each other. -/
theorem stretches_append {a line b : List Char} (ha : EndsLine a)
    (hline : linesOf (line ++ b) = line :: linesOf b) (hsep : isSeparator line = true) :
    stretches (a ++ (line ++ b)) = stretches a ++ stretches b := by
  rw [stretches, linesOf_append ha, hline, List.splitOnP_append_cons _ _ hsep, List.map_append]
  rfl

/-- A separator after whole lines is one of the text. -/
theorem not_holdsNoSeparator {a line b : List Char} (ha : EndsLine a)
    (hline : linesOf (line ++ b) = line :: linesOf b) (hsep : isSeparator line = true) :
    ¬HoldsNoSeparator (a ++ (line ++ b)) := by
  intro hno
  have hmem : line ∈ linesOf (a ++ (line ++ b)) := by
    rw [linesOf_append ha, hline]
    exact List.mem_append_right _ List.mem_cons_self
  rw [hno line hmem] at hsep
  cases hsep

/-- The first separator of a text. -/
theorem exists_first_separator {s : List Char} (h : ¬HoldsNoSeparator s) :
    ∃ a line b, s = a ++ (line ++ b) ∧ EndsLine a ∧ HoldsNoSeparator a ∧
      linesOf (line ++ b) = line :: linesOf b ∧ isSeparator line = true := by
  cases hfind : (linesOf s).find? isSeparator with
  | none =>
    refine absurd (fun line hline => ?_) h
    simpa using List.find?_eq_none.1 hfind line hline
  | some line =>
    obtain ⟨hsep, pre, post, hlines, hbefore⟩ := List.find?_eq_some_iff_append.1 hfind
    have hare := areLines_linesOf s
    rw [hlines] at hare
    obtain ⟨hpre, hpost⟩ := hare.of_append
    have hfirst : linesOf pre.flatten = pre := by
      have := areLines_append hpre .nil
      rw [List.append_nil] at this
      exact linesOf_flatten this
    have hrest : linesOf (line ++ post.flatten) = line :: linesOf post.flatten := by
      rw [← List.flatten_cons, linesOf_flatten hpost, linesOf_flatten hpost.tail]
    refine ⟨pre.flatten, line, post.flatten, ?_, endsLine_flatten hpre, ?_, hrest, hsep⟩
    · rw [← flatten_linesOf s, hlines, List.flatten_append, List.flatten_cons]
    · intro m hm
      rw [hfirst] at hm
      simpa using hbefore m hm

/-- The first line of a text is a separator or belongs to the first stretch. -/
theorem stretches_line {line : List Char} (hline : '\n' ∉ line) (s : List Char) :
    stretches (line ++ '\n' :: s) =
      if isSeparator (line ++ ['\n']) then [] :: stretches s
      else (stretches s).modifyHead (line ++ '\n' :: ·) := by
  rw [stretches, linesOf_line hline, List.splitOnP_cons_eq_if_modifyHead]
  split
  · rfl
  · rw [stretches]
    cases h : (linesOf s).splitOnP isSeparator with
    | nil => exact absurd h (List.splitOnP_ne_nil _ _)
    | cons x xs => simp

/-! ## Lemmas: reading by characters -/

/-- What is read by characters is what lies between the separators, but for a stretch without
characters at the end. -/
theorem filter_batchesFrom (done : List (List Char)) (batch : List Char) {line : List Char}
    (h : '\n' ∉ line) (s : List Char) :
    (batchesFrom done batch line s).reverse.filter (!isAllBlank ·) =
      (done.reverse ++ (stretches (line.reverse ++ s)).modifyHead (batch.reverse ++ ·)).filter
        (!isAllBlank ·) := by
  induction s generalizing done batch line with
  | nil =>
    rw [batchesFrom, List.append_nil]
    by_cases hnil : line = []
    · subst hnil
      simp [stretches, linesOf]
    · have hlines : linesOf line.reverse = [line.reverse] :=
        linesOf_last (by simpa using h) (by simpa using hnil)
      rw [stretches, hlines, List.splitOnP_cons_eq_if_modifyHead]
      by_cases hsep : isSeparator line.reverse = true
      · -- the stretch after the last separator is left out
        rw [if_pos hsep, if_pos hsep]
        simp [List.filter_cons, isAllBlank]
      · rw [if_neg hsep, if_neg hsep]
        simp
  | cons c s ih =>
    rw [batchesFrom]
    by_cases hc : c = '\n'
    · subst hc
      rw [if_pos rfl, stretches_line (by simpa using h), List.reverse_cons]
      obtain ⟨x, xs, hx⟩ := List.exists_cons_of_ne_nil (stretches_ne_nil s)
      by_cases hsep : isSeparator (line.reverse ++ ['\n']) = true
      · rw [if_pos hsep, if_pos hsep, ih _ _ List.not_mem_nil, List.reverse_nil, List.nil_append, hx]
        simp
      · rw [if_neg hsep, if_neg hsep, ih _ _ List.not_mem_nil, List.reverse_nil, List.nil_append, hx]
        simp
    · rw [if_neg hc, ih _ _ (List.not_mem_cons_of_ne_of_not_mem (Ne.symm hc) h),
        List.reverse_cons, List.append_assoc, List.singleton_append]

/-! ## Top theorem (proved from the lemmas above) -/

/-- **The batches of a script** are what lies between its separators and is not blank. -/
theorem batches_eq (script : List Char) :
    batches script = (stretches script).filter (!isAllBlank ·) := by
  rw [batches, filter_batchesFrom [] [] List.not_mem_nil]
  cases hs : stretches script <;> simp [hs]

end RoutineParams
