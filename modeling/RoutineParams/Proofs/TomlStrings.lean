import RoutineParams.Proofs.TomlLongStrings

/-!
# TOML strings read from their texts

A string is read as it was written, in whichever of the four forms. The form is chosen by what the
string holds: it is written between single quotes only if nothing in it has to be escaped.

    readString? (writeString text ++ rest) = some (text, rest)          (readString?_writeString)
-/

namespace RoutineParams.Toml

/-! ## Lemmas: the four forms -/

theorem stringForm_literal {s : List Char} (h : stringForm s = .literal) :
    s ≠ [] ∧ ∀ c ∈ s, c ≠ '\'' ∧ isText c = true := by
  have hnil : s ≠ [] := by
    rintro rfl
    cases h
  unfold stringForm at h
  simp only at h
  split at h
  · cases h
  · split at h
    · next hform =>
      simp only [Bool.and_eq_true, Bool.not_eq_true', List.any_eq_false, decide_eq_true_eq,
        List.contains_eq_mem, decide_eq_false_iff_not, Bool.not_eq_true] at hform
      obtain ⟨⟨hcontrol, hrun⟩, hline⟩ := hform
      refine ⟨hnil, fun c hc => ⟨?_, isText_of_isControl (hcontrol c hc) ?_⟩⟩
      · rintro rfl
        exact not_mem_of_longestRun hrun hc
      · rintro rfl
        exact hline hc
    · split at h
      · cases h
      · split at h
        · cases h
        · split at h <;> cases h

theorem stringForm_longLiteral {s : List Char} (h : stringForm s = .longLiteral) :
    longestRun '\'' 0 0 s ≤ 2 ∧ ∀ c ∈ s, isControl c = false := by
  unfold stringForm at h
  simp only at h
  split at h
  · cases h
  · split at h
    · cases h
    · split at h
      · cases h
      · split at h
        · next hform =>
          simp only [Bool.and_eq_true, Bool.not_eq_true', List.any_eq_false, decide_eq_true_eq,
            Bool.not_eq_true] at hform
          exact ⟨hform.2, hform.1⟩
        · split at h <;> cases h

theorem skipNewline_of_head? {s : List Char} (h : ∀ c ∈ s.head?, c ≠ '\n' ∧ c ≠ '\r') :
    skipNewline s = s := by
  unfold skipNewline afterNewline?
  split
  · exact absurd rfl (h _ rfl).1
  · exact absurd rfl (h _ rfl).2
  · rfl

/-- The line end that is put before a string of several lines is left out again. -/
theorem skipNewline_first {s t : List Char}
    (h : '\n' ∉ s → ∀ c ∈ t.head?, c ≠ '\n' ∧ c ≠ '\r') :
    skipNewline ((if s.contains '\n' then ['\n'] else []) ++ t) = t := by
  by_cases hline : '\n' ∈ s
  · rw [if_pos (by simpa using hline)]
    rfl
  · rw [if_neg (by simpa using hline)]
    exact skipNewline_of_head? (h hline)

/-- How a string between double quotes starts. -/
theorem exists_escapeBasic (long : Bool) (free left : Nat) (c : Char) (s : List Char) :
    ∃ d t, escapeBasic long free left (c :: s) = d :: t ∧ d ≠ '\r' ∧ (d = '\n' → c = '\n') ∧
      (d = '"' → left ≠ 0) := by
  have hslash : '\\' ≠ '\r' ∧ ('\\' = '\n' → c = '\n') ∧ ('\\' = '"' → left ≠ 0) :=
    ⟨by decide, fun h => absurd h (by decide), fun h => absurd h (by decide)⟩
  by_cases hquote : c = '"'
  · subst hquote
    cases left with
    | zero => exact ⟨'\\', _, rfl, hslash⟩
    | succ left => exact ⟨'"', _, rfl, by decide, id, fun _ => Nat.succ_ne_zero left⟩
  · rw [escapeBasic_of_ne long free left s hquote]
    cases hneeds : needsEscape long c with
    | true =>
      obtain ⟨e, he, -⟩ := exists_escapeChar (toNat_lt_of_needsEscape hneeds)
      exact ⟨'\\', _, by rw [if_pos rfl, he]; rfl, hslash⟩
    | false => exact ⟨c, _, rfl, (isText_of_needsEscape hneeds).2.1, id, fun h => absurd h hquote⟩

/-! ## Lemmas: strings of every form -/

section
variable (s : List Char) {rest : List Char}

theorem readString?_basic (hrest : EndsString rest) :
    readString? ('"' :: (escapeBasic false 0 0 s ++ '"' :: rest)) = some (.ofList s, rest) := by
  -- the string is not taken for one of several lines
  have hopen : ∀ t, escapeBasic false 0 0 s ++ '"' :: rest ≠ '"' :: '"' :: t := by
    intro t ht
    cases s with
    | nil =>
      have hhead : rest.head? = some '"' := by rw [(List.cons.inj ht).2]; rfl
      exact (hrest '"' hhead).1 rfl
    | cons c s =>
      obtain ⟨d, u, hd, -, -, hquote⟩ := exists_escapeBasic false 0 0 c s
      rw [hd] at ht
      exact hquote (List.cons.inj ht).1 rfl
  rw [readString?.eq_3 _ hopen, readBasic_escapeBasic [] s rest]
  rfl

variable {s}

theorem readString?_literal (hform : stringForm s = .literal) :
    readString? ('\'' :: (s ++ '\'' :: rest)) = some (.ofList s, rest) := by
  obtain ⟨hnil, hplain⟩ := stringForm_literal hform
  obtain ⟨c, s, rfl⟩ := List.exists_cons_of_ne_nil hnil
  have hopen : ∀ t, c :: s ++ '\'' :: rest ≠ '\'' :: '\'' :: t :=
    fun t ht => (hplain c List.mem_cons_self).1 (List.cons.inj ht).1
  rw [readString?.eq_4 _ hopen, readLiteral_append [] hplain rest]
  rfl

theorem readString?_longBasic (hrest : EndsString rest) :
    readString? (List.replicate 3 '"' ++ ((if s.contains '\n' then ['\n'] else []) ++
      (escapeBasic true 2 2 s ++ (List.replicate 3 '"' ++ rest)))) = some (.ofList s, rest) := by
  have hread := readLongBasic_escapeBasic (Nat.zero_add 2) [] s hrest
  have hfirst : '\n' ∉ s → ∀ c ∈ (escapeBasic true 2 2 s ++
      (List.replicate 3 '"' ++ rest)).head?, c ≠ '\n' ∧ c ≠ '\r' := by
    intro hline c hc
    cases s with
    | nil =>
      obtain rfl := Option.some.inj hc
      decide
    | cons b s =>
      obtain ⟨d, u, hd, hreturn, hnewline, -⟩ := exists_escapeBasic true 2 2 b s
      rw [hd] at hc
      obtain rfl := Option.some.inj hc
      exact ⟨fun h => hline (hnewline h ▸ List.mem_cons_self), hreturn⟩
  refine (readString?.eq_1 _).trans ?_
  exact (congrArg (readLongBasic []) (skipNewline_first hfirst)).trans hread

theorem readString?_longLiteral (hrest : EndsString rest) (hform : stringForm s = .longLiteral) :
    readString? (List.replicate 3 '\'' ++ ((if s.contains '\n' then ['\n'] else []) ++
      (s ++ (List.replicate 3 '\'' ++ rest)))) = some (.ofList s, rest) := by
  obtain ⟨hrun, hcontrol⟩ := stringForm_longLiteral hform
  have hread := readLongLiteral_append [] hrun hcontrol hrest
  have hfirst : '\n' ∉ s → ∀ c ∈ (s ++ (List.replicate 3 '\'' ++ rest)).head?,
      c ≠ '\n' ∧ c ≠ '\r' := by
    intro hline c hc
    cases s with
    | nil =>
      obtain rfl := Option.some.inj hc
      decide
    | cons b s =>
      obtain rfl := Option.some.inj hc
      refine ⟨fun h => hline (h ▸ List.mem_cons_self), ?_⟩
      rintro rfl
      cases hcontrol _ List.mem_cons_self
  refine (readString?.eq_2 _).trans ?_
  exact (congrArg (readLongLiteral []) (skipNewline_first hfirst)).trans hread

end

/-! ## Top theorem (proved from the lemmas above) -/

/-- **A string is read as it was written.** -/
theorem readString?_writeString (text : String) {rest : List Char} (hrest : EndsString rest) :
    readString? (writeString text ++ rest) = some (text, rest) := by
  generalize hs : text.toList = s
  obtain rfl : text = String.ofList s := by rw [← hs, String.ofList_toList]
  rw [writeString, String.toList_ofList]
  cases hform : stringForm s with
  | basic =>
    simp only [List.cons_append, List.append_assoc, List.nil_append]
    exact readString?_basic s hrest
  | literal =>
    simp only [List.cons_append, List.append_assoc, List.nil_append]
    exact readString?_literal hform
  | longBasic =>
    simp only [List.append_assoc]
    exact readString?_longBasic hrest
  | longLiteral =>
    simp only [List.append_assoc]
    exact readString?_longLiteral hrest hform

end RoutineParams.Toml
