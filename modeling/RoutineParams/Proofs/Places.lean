import Mathlib.Data.List.Induction
import RoutineParams.Text.Position

/-!
# Places are found again

The position reached by reading the start of a text leads the index of the text back to where the
reading stopped, so what stands between two such positions is what was read between them.

    (ofText (a ++ b)).offset? (after a) = some a.length                        (offset?_after)
    (ofText (a ++ b ++ c)).between? (after a) (after (a ++ b)) = some b        (between?_after)
-/

namespace RoutineParams

/-! ## Lemmas -/

theorem lineStarts_counter (s : List Char) (n : Nat) (starts : Array Nat) :
    (s.foldl (fun (n, starts) c => (n + 1, if c = '\n' then starts.push (n + 1) else starts))
      (n, starts)).1 = n + s.length := by
  induction s generalizing n starts with
  | nil => simp
  | cons c s ih =>
    rw [List.foldl_cons, ih, List.length_cons]
    omega

theorem lineStarts_append_singleton (s : List Char) (c : Char) :
    lineStarts (s ++ [c]) =
      if c = '\n' then (lineStarts s).push (s.length + 1) else lineStarts s := by
  have h := lineStarts_counter s 0 #[0]
  unfold lineStarts
  rw [List.foldl_append, List.foldl_cons, List.foldl_nil]
  simp only [h, Nat.zero_add]

theorem after_append (a b : List Char) :
    Position.after (a ++ b) = b.foldl Position.next (Position.after a) := by
  unfold Position.after
  rw [List.foldl_append]

theorem after_append_singleton (s : List Char) (c : Char) :
    Position.after (s ++ [c]) = (Position.after s).next c := after_append s [c]

theorem one_le_column_after (s : List Char) : 1 ≤ (Position.after s).column := by
  induction s using List.reverseRecOn with
  | nil => exact Nat.le_refl 1
  | append_singleton s c ih =>
    rw [after_append_singleton]
    unfold Position.next
    split
    · exact Nat.le_refl 1
    · exact Nat.le_succ_of_le ih

/-- The start of a text has the first of its lines. -/
theorem lineStarts_append (a b : List Char) :
    ∃ more : Array Nat, lineStarts (a ++ b) = lineStarts a ++ more := by
  induction b using List.reverseRecOn with
  | nil => exact ⟨#[], by simp⟩
  | append_singleton b c ih =>
    obtain ⟨more, h⟩ := ih
    rw [← List.append_assoc, lineStarts_append_singleton, h]
    split
    · exact ⟨more.push ((a ++ b).length + 1), by rw [Array.push_append]⟩
    · exact ⟨more, rfl⟩

/-- The last line of a text is the line that reading it ends in, and the column counts from the
start of that line. -/
theorem lineStarts_last (s : List Char) :
    (Position.after s).line = (lineStarts s).size ∧
      (lineStarts s)[(lineStarts s).size - 1]? = some (s.length - ((Position.after s).column - 1)) ∧
      (Position.after s).column - 1 ≤ s.length := by
  induction s using List.reverseRecOn with
  | nil => simp [Position.after, Position.start, lineStarts]
  | append_singleton s c ih =>
    obtain ⟨hline, hlast, hcolumn⟩ := ih
    have hone := one_le_column_after s
    rw [after_append_singleton, lineStarts_append_singleton]
    unfold Position.next
    by_cases h : c = '\n'
    · simp [h, hline]
    · have hlen : s.length + 1 - (Position.after s).column =
          s.length - ((Position.after s).column - 1) := by omega
      simp only [h, if_false, List.length_append, List.length_singleton]
      refine ⟨hline, ?_, by omega⟩
      rw [Nat.add_sub_cancel, hlen]
      exact hlast

theorem lineStarts_size_pos (s : List Char) : 0 < (lineStarts s).size := by
  obtain ⟨-, hlast, -⟩ := lineStarts_last s
  obtain ⟨h, -⟩ := Array.getElem?_eq_some_iff.1 hlast
  omega

namespace TextIndex

/-- The position after the first characters of a text leads back to where they end. -/
theorem offset?_after (a b : List Char) :
    (ofText (a ++ b)).offset? (Position.after a) = some a.length := by
  obtain ⟨hline, hlast, hcolumn⟩ := lineStarts_last a
  obtain ⟨more, hmore⟩ := lineStarts_append a b
  have hpos := lineStarts_size_pos a
  have hsucc : (Position.after a).line = ((lineStarts a).size - 1) + 1 := by omega
  unfold offset? ofText
  rw [hsucc, hmore]
  simp only
  rw [Array.getElem?_append_left (by omega), hlast]
  simp only [Option.map_some, List.size_toArray, List.length_append, Option.some.injEq]
  omega

/-- What stands between two positions of a text is what was read from the one to the other. -/
theorem between?_after (a b c : List Char) (hb : b ≠ []) :
    (ofText (a ++ b ++ c)).between? (Position.after a) (Position.after (a ++ b)) = some b := by
  have hlen := List.length_pos_iff.2 hb
  unfold between?
  rw [offset?_after (a ++ b) c, List.append_assoc a b c, offset?_after a (b ++ c)]
  simp only [List.length_append]
  rw [if_pos (by omega)]
  simp [ofText]

end TextIndex

end RoutineParams
