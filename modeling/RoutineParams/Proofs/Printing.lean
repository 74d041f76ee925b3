import RoutineParams.Proofs.Texts

/-!
# Printed routines

The definitions of a script's routines, joined by separators, make a script with the same routines.
Every text of it is the definition of one of them, so only their places can change.

    IsText t for each t ∈ ts → texts (ts joined by separators) = ts                    (texts_joined)
    routinesOfScript path (definitions joined) = the routines, numbered anew   (routinesOfScript_joined)
-/

namespace RoutineParams

/-! ## Definitions -/

/-- A text as a script has them: it is not blank, has no blanks at its ends and no separator. -/
structure IsText (t : List Char) : Prop where
  nonblank : isAllBlank t = false
  trimmed : trimBlank t = t
  holdsNoSeparator : HoldsNoSeparator t

/-- The routine as the batch `index` of the script `path` defines it. -/
def Routine.placedAt (path : String) (index : Nat) (r : Routine) : Routine :=
  { r with objectId := objectIdOf path index }

/-! ## Lemmas: texts -/

theorem isText_of_mem {s t : List Char} (h : t ∈ texts s) : IsText t := by
  have hno := holdsNoSeparator_of_mem h
  rw [texts_eq] at h
  obtain ⟨u, hu, rfl⟩ := List.mem_map.1 h
  have hblank : isAllBlank u = false := by simpa using (List.mem_filter.1 hu).2
  refine ⟨?_, trimBlank_trimBlank u, hno⟩
  rw [Bool.eq_false_iff] at hblank ⊢
  exact fun hall => hblank ((isAllBlank_iff_trimBlank u).2
    ((trimBlank_trimBlank u).symm.trans (trimBlank_of_all hall)))

theorem IsText.texts_eq {t : List Char} (h : IsText t) : texts t = [t] := by
  rw [texts_of_holdsNoSeparator h.holdsNoSeparator, h.nonblank, h.trimmed]
  rfl

/-- Texts are those of the script that they make up with separators between them. -/
theorem texts_joined {ts : List (List Char)} (h : ∀ t ∈ ts, IsText t) :
    texts (['\n', 'G', 'O', '\n'].intercalate ts) = ts := by
  induction ts with
  | nil => rfl
  | cons t ts ih =>
    have ht := h t List.mem_cons_self
    cases ts with
    | nil =>
      rw [List.intercalate_singleton]
      exact ht.texts_eq
    | cons u ts =>
      have hgo : '\n' ∉ ['G', 'O'] := by decide
      have hline : ∀ b : List Char, linesOf (['G', 'O', '\n'] ++ b) = ['G', 'O', '\n'] :: linesOf b :=
        linesOf_line hgo
      have hfirst : texts (t ++ ['\n']) = [t] := by
        have hno := (holdsNoSeparator_concat_iff (c := '\n') (by decide)).2 ht.holdsNoSeparator
        rw [texts_of_holdsNoSeparator hno, trimBlank_append_right (by decide), ht.trimmed,
          isAllBlank_append, ht.nonblank]
        rfl
      rw [List.intercalate_cons_cons]
      calc texts (t ++ ['\n', 'G', 'O', '\n'] ++ ['\n', 'G', 'O', '\n'].intercalate (u :: ts))
          = texts (t ++ ['\n'] ++ (['G', 'O', '\n'] ++ ['\n', 'G', 'O', '\n'].intercalate (u :: ts))) := by
            simp
        _ = texts (t ++ ['\n']) ++ texts (['\n', 'G', 'O', '\n'].intercalate (u :: ts)) :=
            texts_append (endsLine_concat t) (hline _) (by decide)
        _ = t :: u :: ts := by
            rw [hfirst, ih fun v hv => h v (List.mem_cons_of_mem t hv), List.singleton_append]

/-! ## Lemmas: definitions -/

/-- What a text defines does not depend on its place but for the number. -/
theorem routineOfBatch?_placedAt {path path' : String} {index index' : Nat} {t : List Char}
    {r : Routine} (h : routineOfBatch? path index t = some r) :
    routineOfBatch? path' index' t = some (r.placedAt path' index') := by
  rw [routineOfBatch?] at h ⊢
  cases hheader : headerFrom? false t with
  | none => rw [hheader] at h; cases h
  | some header =>
    rw [hheader] at h
    cases h
    rfl

theorem definition_of_routineOfBatch? {path : String} {index : Nat} {t : List Char} {r : Routine}
    (h : routineOfBatch? path index t = some r) : r.definition.toList = trimBlank t := by
  rw [routineOfBatch?] at h
  cases hheader : headerFrom? false t with
  | none => rw [hheader] at h; cases h
  | some header =>
    rw [hheader] at h
    cases h
    exact String.toList_ofList

/-- The definition of a routine is the text that defines it. -/
theorem exists_text_of_mem {path script : String} {r : Routine}
    (h : r ∈ routinesOfScript path script) :
    ∃ index, routineOfBatch? path index r.definition.toList = some r ∧
      IsText r.definition.toList := by
  rw [routinesOfScript_eq_texts, routinesOfTexts, List.mem_filterMap] at h
  obtain ⟨⟨t, index⟩, hmem, hr⟩ := h
  have ht := isText_of_mem (List.fst_mem_of_mem_zipIdx hmem)
  have hdefinition : r.definition.toList = t := (definition_of_routineOfBatch? hr).trans ht.trimmed
  exact ⟨index, by rw [hdefinition]; exact hr, by rw [hdefinition]; exact ht⟩

/-- Definitions make the routines that they belong to. -/
theorem routinesOfTexts_definitions (path : String) {rs : List Routine}
    (h : ∀ r ∈ rs, ∃ path' index, routineOfBatch? path' index r.definition.toList = some r) :
    routinesOfTexts path (rs.map fun r => r.definition.toList) =
      rs.zipIdx.map fun (r, index) => r.placedAt path index := by
  rw [routinesOfTexts]
  generalize 0 = k
  induction rs generalizing k with
  | nil => rfl
  | cons r rs ih =>
    obtain ⟨path', index, hr⟩ := h r List.mem_cons_self
    have hplaced : routineOfBatch? path k r.definition.toList = some (r.placedAt path k) :=
      routineOfBatch?_placedAt hr
    rw [List.map_cons, List.zipIdx_cons, List.zipIdx_cons, List.filterMap_cons, List.map_cons,
      ih (fun q hq => h q (List.mem_cons_of_mem r hq)) (k + 1)]
    simp only [hplaced]

/-! ## Top theorem (proved from the lemmas above) -/

/-- **Routines are read from their definitions again**: the definitions of a script's routines, with
separators between them, make a script with the same routines in the same order, each numbered by
its place among them; and each definition on its own makes its routine alone. -/
theorem routinesOfScript_definitions (path script : String) :
    let rs := routinesOfScript path script
    routinesOfScript path ("\nGO\n".intercalate (rs.map (·.definition))) =
        rs.zipIdx.map (fun (r, index) => r.placedAt path index) ∧
      ∀ r ∈ rs, routinesOfScript path r.definition = [r.placedAt path 0] := by
  intro rs
  have hsource : ∀ r ∈ rs, ∃ path' index,
      routineOfBatch? path' index r.definition.toList = some r := by
    intro r hr
    obtain ⟨index, hindex, -⟩ := exists_text_of_mem hr
    exact ⟨path, index, hindex⟩
  have htext : ∀ r ∈ rs, IsText r.definition.toList := by
    intro r hr
    obtain ⟨-, -, htext⟩ := exists_text_of_mem hr
    exact htext
  constructor
  · have hjoined : texts ("\nGO\n".intercalate (rs.map (·.definition))).toList =
        rs.map fun r => r.definition.toList := by
      rw [String.toList_intercalate, List.map_map]
      exact texts_joined (List.forall_mem_map.2 htext)
    rw [routinesOfScript_eq_texts, hjoined, routinesOfTexts_definitions path hsource]
  · intro r hr
    have hone : ∀ q ∈ [r], ∃ path' index,
        routineOfBatch? path' index q.definition.toList = some q :=
      List.forall_mem_singleton.2 (hsource r hr)
    rw [routinesOfScript_eq_texts, (htext r hr).texts_eq]
    exact routinesOfTexts_definitions path hone

/-- A routine of the second batch is the first one of its definition. -/
theorem routinesOfScript_definitions_sample :
    ∃ r ∈ routinesOfScript "a.sql" "grant x\nGO\n create proc p as \n",
      r.definition = "create proc p as" ∧
        routinesOfScript "a.sql" r.definition = [r.placedAt "a.sql" 0] := by
  have hrs : (routinesOfScript "a.sql" "grant x\nGO\n create proc p as \n").map (·.definition) =
      ["create proc p as"] := by decide +kernel
  obtain ⟨r, hr, hdefinition⟩ := List.mem_map.1 (hrs ▸ List.mem_singleton_self "create proc p as")
  have hone := (routinesOfScript_definitions "a.sql" "grant x\nGO\n create proc p as \n").2 r hr
  exact ⟨r, hr, hdefinition, hone⟩

end RoutineParams
