import RoutineParams.Proofs.Keywords
import RoutineParams.Proofs.Texts

/-!
# Batches as runs of lines

The lines of a script fall into runs between those that say `GO`. A batch is the text of a run that
is not blank, and it stands in the script as one piece.

    isSeparator line = true ↔ SaysGo line                                    (isSeparator_iff)
    the texts of the runs stand one after the other in the text         (standApart_runs)
    the batches are the texts of the runs, less the blank ones      (splitScript_eq_runs)
-/

namespace RoutineParams

/-! ## Definitions -/

/-- A line that says `GO`, in any case and with blanks around it. -/
def SaysGo (line : List Char) : Prop :=
  ∃ a g o b, line = a ++ g :: o :: b ∧ isAllBlank a = true ∧ isAllBlank b = true ∧
    (g = 'G' ∨ g = 'g') ∧ (o = 'O' ∨ o = 'o')

/-- Pieces that stand in a text one after the other, none of them reaching into the next. -/
inductive StandApart : List (List Char) → List Char → Prop
  | nil (rest : List Char) : StandApart [] rest
  | cons (gap piece : List Char) {pieces : List (List Char)} {rest : List Char} :
      StandApart pieces rest → StandApart (piece :: pieces) (gap ++ (piece ++ rest))

/-! ## Lemmas: separators -/

theorem toUpper_eq_iff {u : Char} (hu : u = 'G' ∨ u = 'O') (c : Char) :
    c.toUpper = u ↔ c = u ∨ c = u.toLower := by
  refine ⟨eq_or_eq_of_toUpper, fun h => ?_⟩
  rcases hu with rfl | rfl <;> rcases h with rfl | rfl <;> rfl

theorem map_toUpper_eq_go_iff (s : List Char) :
    s.map Char.toUpper = ['G', 'O'] ↔
      ∃ g o, s = [g, o] ∧ (g = 'G' ∨ g = 'g') ∧ (o = 'O' ∨ o = 'o') := by
  constructor
  · intro h
    obtain ⟨g, t, rfl, hg, ht⟩ := List.map_eq_cons_iff.1 h
    obtain ⟨o, u, rfl, ho, hu⟩ := List.map_eq_cons_iff.1 ht
    obtain rfl := List.map_eq_nil_iff.1 hu
    exact ⟨g, o, rfl, (toUpper_eq_iff (.inl rfl) g).1 hg, (toUpper_eq_iff (.inr rfl) o).1 ho⟩
  · rintro ⟨g, o, rfl, hg, ho⟩
    rw [List.map_cons, List.map_singleton, (toUpper_eq_iff (.inl rfl) g).2 hg,
      (toUpper_eq_iff (.inr rfl) o).2 ho]

/-- The lines that separate batches say `GO`. -/
theorem isSeparator_iff (line : List Char) : isSeparator line = true ↔ SaysGo line := by
  rw [isSeparator, beq_iff_eq, map_toUpper_eq_go_iff]
  constructor
  · rintro ⟨g, o, htrim, hg, ho⟩
    obtain ⟨a, b, hline, ha, hb⟩ := exists_trimBlank line
    rw [htrim] at hline
    exact ⟨a, g, o, b, hline, ha, hb, hg, ho⟩
  · rintro ⟨a, g, o, b, rfl, ha, hb, hg, ho⟩
    refine ⟨g, o, ?_, hg, ho⟩
    have hgo : trimBlank [g, o] = [g, o] := by
      rcases hg with rfl | rfl <;> rcases ho with rfl | rfl <;> decide
    calc trimBlank (a ++ g :: o :: b)
        = trimBlank (a ++ ([g, o] ++ b)) := rfl
      _ = [g, o] := by rw [trimBlank_append_left ha, trimBlank_append_right hb, hgo]

/-! ## Lemmas: pieces of a text -/

section
variable {piece s : List Char} {pieces sub : List (List Char)}

namespace StandApart

theorem prepend (h : StandApart pieces s) (a : List Char) : StandApart pieces (a ++ s) := by
  cases h with
  | nil => exact .nil _
  | cons gap piece hrest =>
    rw [← List.append_assoc]
    exact .cons (a ++ gap) piece hrest

theorem tail (h : StandApart (piece :: pieces) s) : StandApart pieces s := by
  cases h with
  | cons gap _ hrest => exact (hrest.prepend _).prepend _

/-- Some of the pieces stand apart as all of them do. -/
theorem sublist (h : StandApart pieces s) (hsub : sub.Sublist pieces) : StandApart sub s := by
  induction hsub generalizing s with
  | slnil => exact h
  | cons _ _ ih => exact ih h.tail
  | cons_cons _ _ ih =>
    cases h with
    | cons gap _ hrest => exact .cons gap _ (ih hrest)

end StandApart

end

/-! ## Lemmas: runs between separators -/

section
variable (p : List Char → Bool) (lines : List (List Char))

/-- The first run starts a text, and the other ones stand in what follows it. -/
theorem exists_first_run : ∃ run runs rest, lines.splitOnP p = run :: runs ∧
    lines.flatten = run.flatten ++ rest ∧ StandApart (runs.map List.flatten) rest := by
  induction lines with
  | nil => exact ⟨[], [], [], rfl, rfl, .nil _⟩
  | cons line lines ih =>
    obtain ⟨run, runs, rest, hruns, hflatten, hstand⟩ := ih
    rw [List.splitOnP_cons_eq_if_modifyHead, hruns, List.flatten_cons, hflatten]
    split
    · refine ⟨[], run :: runs, line ++ (run.flatten ++ rest), rfl, rfl, ?_⟩
      exact .cons line run.flatten hstand
    · refine ⟨line :: run, runs, rest, rfl, ?_, hstand⟩
      rw [List.flatten_cons, List.append_assoc]

theorem standApart_runs : StandApart ((lines.splitOnP p).map List.flatten) lines.flatten := by
  obtain ⟨run, runs, rest, hruns, hflatten, hstand⟩ := exists_first_run p lines
  rw [hruns, hflatten, List.map_cons]
  exact .cons [] run.flatten hstand

/-- The runs together are the lines that separate nothing. -/
theorem flatten_runs : (lines.splitOnP p).flatten = lines.filter (!p ·) := by
  induction lines with
  | nil => rfl
  | cons line lines ih =>
    rw [List.splitOnP_cons_eq_if_modifyHead]
    cases hline : p line with
    | true => simp [ih, hline]
    | false =>
      obtain ⟨run, runs, hruns⟩ := List.exists_cons_of_ne_nil (List.splitOnP_ne_nil p lines)
      rw [hruns, List.flatten_cons] at ih
      simp [hruns, ih, hline]

end

/-- Texts of blanks add nothing to the characters that are no blanks. -/
theorem filter_flatten_nonblank (ts : List (List Char)) :
    (ts.filter (!isAllBlank ·)).flatten.filter (!isBlank ·) = ts.flatten.filter (!isBlank ·) := by
  induction ts with
  | nil => rfl
  | cons t ts ih =>
    rw [List.flatten_cons, List.filter_append, ← ih]
    cases ht : isAllBlank t with
    | true =>
      have hnone : t.filter (!isBlank ·) = [] := by simpa [isAllBlank] using ht
      simp [ht, hnone]
    | false => simp [ht]

/-! ## Lemmas: batches of a script -/

theorem map_toList_splitScript (script : String) :
    (splitScript script).map String.toList = batches script.toList := by
  rw [splitScript, List.map_map]
  exact (List.map_congr_left fun batch _ => String.toList_ofList).trans (List.map_id _)

theorem splitScript_append {before : String} (h : EndsLine before.toList) (after : String) :
    splitScript (before ++ "GO\n" ++ after) = splitScript before ++ splitScript after := by
  have hline : linesOf ("GO\n".toList ++ after.toList) = "GO\n".toList :: linesOf after.toList :=
    IsLine.linesOf_append ⟨"GO".toList, by decide, rfl⟩ _
  rw [splitScript, String.toList_append, String.toList_append, List.append_assoc,
    batches_append h hline (by decide), List.map_append]
  rfl

/-! ## Top theorem (proved from the lemmas above) -/

/-- **The batches of a script** are the texts of the runs of its lines between those that say `GO`,
less the blank ones. They stand apart in the script. Scripts with a separator between them are split
each by itself, and the batches hold all characters but blanks that the lines hold, in order. -/
theorem splitScript_eq_runs (script : String) :
    (AreLines (linesOf script.toList) ∧ (linesOf script.toList).flatten = script.toList) ∧
    (∀ line, isSeparator line = true ↔ SaysGo line) ∧
    (splitScript script).map String.toList =
      (((linesOf script.toList).splitOnP isSeparator).map List.flatten).filter (!isAllBlank ·) ∧
    StandApart ((splitScript script).map String.toList) script.toList ∧
    (∀ before after : String, EndsLine before.toList →
      splitScript (before ++ "GO\n" ++ after) = splitScript before ++ splitScript after) ∧
    ((splitScript script).map String.toList).flatten.filter (!isBlank ·) =
      ((linesOf script.toList).filter (!isSeparator ·)).flatten.filter (!isBlank ·) := by
  have hruns : (splitScript script).map String.toList =
      (((linesOf script.toList).splitOnP isSeparator).map List.flatten).filter
        (!isAllBlank ·) := by
    rw [map_toList_splitScript, batches_eq, stretches]
  refine ⟨⟨areLines_linesOf _, flatten_linesOf _⟩, isSeparator_iff, hruns, ?_,
    fun _ after hbefore => splitScript_append hbefore after, ?_⟩
  · have hall := standApart_runs isSeparator (linesOf script.toList)
    rw [flatten_linesOf] at hall
    rw [hruns]
    exact hall.sublist List.filter_sublist
  · rw [hruns, filter_flatten_nonblank, ← flatten_runs isSeparator, List.flatten_flatten]

/-- Scripts with other blanks around their separators, two of which stand side by side. -/
theorem splitScript_eq_runs_sample :
    EndsLine "select 1\r\n".toList ∧
      splitScript ("select 1\r\n" ++ "GO\n" ++ "\u2003go\u00a0\r\n\nselect 'é'\n gO") =
        splitScript "select 1\r\n" ++ splitScript "\u2003go\u00a0\r\n\nselect 'é'\n gO" ∧
      splitScript "select 1\r\n" ++ splitScript "\u2003go\u00a0\r\n\nselect 'é'\n gO" =
        ["select 1\r\n", "\nselect 'é'\n"] := by
  have hends : EndsLine "select 1\r\n".toList := endsLine_concat "select 1\r".toList
  obtain ⟨-, -, -, -, happend, -⟩ := splitScript_eq_runs "select 1\r\n"
  exact ⟨hends, happend _ _ hends, by decide +kernel⟩

end RoutineParams
