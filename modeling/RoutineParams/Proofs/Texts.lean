import RoutineParams.Proofs.Headers
import RoutineParams.Proofs.Lines
import RoutineParams.Routine

/-!
# Texts of a script

The texts of a script are its batches without the blanks at their ends. Its routines are told by
these alone, and none of them holds a separator.

    routinesOfScript path script = routinesOfTexts path (texts script)      (routinesOfScript_eq_texts)
    EndsLine a → texts (a ++ (line ++ b)) = texts a ++ texts b, line a separator        (texts_append)
    t ∈ texts s → HoldsNoSeparator t                                        (holdsNoSeparator_of_mem)
-/

namespace RoutineParams

/-! ## Definitions -/

/-- The texts of the batches of a script. -/
def texts (script : List Char) : List (List Char) := (batches script).map trimBlank

/-- The routines that the texts of the script `path` define. -/
def routinesOfTexts (path : String) (ts : List (List Char)) : List Routine :=
  ts.zipIdx.filterMap fun (text, index) => routineOfBatch? path index text

/-! ## Lemmas: routines of texts -/

variable {a b s t line : List Char} {c : Char}

theorem routineOfBatch?_trimBlank (path : String) (index : Nat) (batch : List Char) :
    routineOfBatch? path index (trimBlank batch) = routineOfBatch? path index batch := by
  rw [routineOfBatch?, headerFrom?_trimBlank, trimBlank_trimBlank]
  rfl

theorem routinesOfScript_eq_texts (path script : String) :
    routinesOfScript path script = routinesOfTexts path (texts script.toList) := by
  rw [routinesOfScript, routinesOfTexts, texts, List.zipIdx_map, List.filterMap_map]
  congr 1
  funext ⟨batch, index⟩
  exact (routineOfBatch?_trimBlank path index batch).symm

/-! ## Lemmas: batches around a separator -/

theorem batches_of_holdsNoSeparator (h : HoldsNoSeparator s) :
    batches s = if isAllBlank s then [] else [s] := by
  rw [batches_eq, stretches_eq_singleton h]
  cases hs : isAllBlank s <;> simp [hs]

/-- The batches before a separator and those after it. -/
theorem batches_append (ha : EndsLine a) (hline : linesOf (line ++ b) = line :: linesOf b)
    (hsep : isSeparator line = true) : batches (a ++ (line ++ b)) = batches a ++ batches b := by
  rw [batches_eq, stretches_append ha hline hsep, List.filter_append, ← batches_eq, ← batches_eq]

theorem texts_eq (script : List Char) :
    texts script = ((stretches script).filter (!isAllBlank ·)).map trimBlank := by
  rw [texts, batches_eq]

theorem texts_of_holdsNoSeparator (h : HoldsNoSeparator s) :
    texts s = if isAllBlank s then [] else [trimBlank s] := by
  rw [texts, batches_of_holdsNoSeparator h]
  cases isAllBlank s <;> simp

/-- The texts before a separator and those after it. -/
theorem texts_append (ha : EndsLine a) (hline : linesOf (line ++ b) = line :: linesOf b)
    (hsep : isSeparator line = true) : texts (a ++ (line ++ b)) = texts a ++ texts b := by
  rw [texts, batches_append ha hline hsep, List.map_append, ← texts, ← texts]

/-! ## Lemmas: texts without a separator -/

theorem isSeparator_append_left (ha : isAllBlank a = true) (s : List Char) :
    isSeparator (a ++ s) = isSeparator s := by
  rw [isSeparator, isSeparator, trimBlank_append_left ha]

theorem isSeparator_append_right (hb : isAllBlank b = true) (s : List Char) :
    isSeparator (s ++ b) = isSeparator s := by
  rw [isSeparator, isSeparator, trimBlank_append_right hb]

theorem isSeparator_of_isAllBlank (hs : isAllBlank s = true) : isSeparator s = false := by
  rw [isSeparator, trimBlank_of_all hs]
  rfl

/-- A blank at the front of a text makes no separator of its first line and leaves none. -/
theorem holdsNoSeparator_cons_iff (hc : isBlank c = true) :
    HoldsNoSeparator (c :: s) ↔ HoldsNoSeparator s := by
  have hblank : isAllBlank [c] = true := by simp [hc]
  rw [HoldsNoSeparator, HoldsNoSeparator, linesOf]
  split
  · simp [isSeparator_of_isAllBlank hblank]
  · cases linesOf s with
    | nil => simp [isSeparator_of_isAllBlank hblank]
    | cons line lines =>
      have hline : isSeparator (c :: line) = isSeparator line := isSeparator_append_left hblank line
      simp [hline]

theorem holdsNoSeparator_concat_iff (hc : isBlank c = true) :
    HoldsNoSeparator (s ++ [c]) ↔ HoldsNoSeparator s := by
  obtain ⟨a, line, rfl, ha, hline⟩ := exists_endsLine_append s
  have hblank : isAllBlank [c] = true := by simp [hc]
  have hconcat : linesOf (line ++ [c]) = [line ++ [c]] := by
    by_cases hnewline : c = '\n'
    · subst hnewline
      exact linesOf_line hline []
    · refine linesOf_last ?_ (by simp)
      simpa using ⟨hline, Ne.symm hnewline⟩
  rw [HoldsNoSeparator, HoldsNoSeparator, List.append_assoc, linesOf_append ha, linesOf_append ha,
    hconcat]
  rw [List.forall_mem_append, List.forall_mem_append, List.forall_mem_singleton,
    isSeparator_append_right hblank]
  refine and_congr_right fun _ => ?_
  by_cases hnil : line = []
  · subst hnil
    exact iff_of_true isSeparator_nil (by simp [linesOf])
  · rw [linesOf_last hline hnil, List.forall_mem_singleton]

theorem holdsNoSeparator_append_iff (ha : isAllBlank a = true) (hb : isAllBlank b = true) :
    HoldsNoSeparator (a ++ (s ++ b)) ↔ HoldsNoSeparator s := by
  have hback : ∀ t : List Char, HoldsNoSeparator (t ++ b) ↔ HoldsNoSeparator t := by
    intro t
    induction b generalizing t with
    | nil => rw [List.append_nil]
    | cons c b ih =>
      rw [isAllBlank_cons, Bool.and_eq_true] at hb
      rw [List.append_cons, ih hb.2, holdsNoSeparator_concat_iff hb.1]
  induction a with
  | nil => exact hback s
  | cons c a ih =>
    rw [isAllBlank_cons, Bool.and_eq_true] at ha
    rw [List.cons_append, holdsNoSeparator_cons_iff ha.1]
    exact ih ha.2

theorem holdsNoSeparator_trimBlank (h : HoldsNoSeparator s) : HoldsNoSeparator (trimBlank s) := by
  obtain ⟨a, b, hs, ha, hb⟩ := exists_trimBlank s
  rw [hs] at h
  exact (holdsNoSeparator_append_iff ha hb).1 h

/-- Between separators there is none. -/
theorem holdsNoSeparator_of_mem_stretches (h : t ∈ stretches s) : HoldsNoSeparator t := by
  have hnil : HoldsNoSeparator [] := by simp [HoldsNoSeparator, linesOf]
  rw [← flatten_linesOf s] at h
  generalize hlines : linesOf s = lines at h
  have hare := areLines_linesOf s
  rw [hlines] at hare
  clear hlines
  -- line by line: each is a separator or joins the first stretch of what follows it
  induction hare generalizing t with
  | nil =>
    obtain rfl : t = [] := by simpa [stretches, linesOf] using h
    exact hnil
  | @last line hline hne =>
    rw [List.flatten_singleton] at h
    have hlines := linesOf_last hline hne
    cases hsep : isSeparator line with
    | true =>
      obtain rfl : t = [] := by
        simpa [stretches, hlines, List.splitOnP_cons_eq_if_modifyHead, hsep] using h
      exact hnil
    | false =>
      have hno : HoldsNoSeparator line := by simpa [HoldsNoSeparator, hlines] using hsep
      rw [stretches_eq_singleton hno, List.mem_singleton] at h
      rwa [h]
  | @cons line lines hline _ ih =>
    rw [List.flatten_cons, List.append_assoc, List.singleton_append, stretches_line hline] at h
    obtain ⟨x, xs, hx⟩ := List.exists_cons_of_ne_nil (stretches_ne_nil lines.flatten)
    rw [hx] at ih h
    split at h
    · rcases List.mem_cons.1 h with rfl | h
      · exact hnil
      · exact ih h
    · next hsep =>
      rcases List.mem_cons.1 h with rfl | h
      · rw [HoldsNoSeparator, linesOf_line hline, List.forall_mem_cons]
        exact ⟨Bool.eq_false_iff.2 hsep, ih List.mem_cons_self⟩
      · exact ih (List.mem_cons_of_mem x h)

theorem holdsNoSeparator_of_mem (h : t ∈ texts s) : HoldsNoSeparator t := by
  rw [texts_eq] at h
  obtain ⟨u, hu, rfl⟩ := List.mem_map.1 h
  exact holdsNoSeparator_trimBlank (holdsNoSeparator_of_mem_stretches (List.mem_filter.1 hu).1)

end RoutineParams
