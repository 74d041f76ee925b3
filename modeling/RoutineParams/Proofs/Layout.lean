import Mathlib.Logic.Relation
import RoutineParams.Proofs.Texts

/-!
# The layout of a script

What a script looks like between its routines is nothing to them: its lines may end with a carriage
return before the newline, and lines of blanks and further separators may stand where it begins and
beside its separators. A text and its lines are changed alike, and so are the texts between its
separators.

    routinesOfScript path (withReturns script) = the routines with their texts changed
                                                                      (routinesOfScript_withReturns)
    AddsIdle script script' → texts script' = texts script                           (AddsIdle.texts_eq)
-/

namespace RoutineParams

/-! ## Definitions -/

/-- A newline with a carriage return before it, other characters as they are. -/
def returned (c : Char) : List Char := if c = '\n' then ['\r', '\n'] else [c]

/-- A text with a carriage return before every newline. -/
def withReturns (s : String) : String := String.ofList (s.toList.flatMap returned)

/-- The texts between the separators among lines. -/
def textsOfLines (lines : List (List Char)) : List (List Char) :=
  (((lines.splitOnP isSeparator).map List.flatten).filter (!isAllBlank ·)).map trimBlank

/-- A line that says nothing between separators: another separator or blanks. -/
def IsIdle (line : List Char) : Prop :=
  IsLine line ∧ (isSeparator line = true ∨ isAllBlank line = true)

/-- Idle lines are added to a script at one place: where it begins, before a separator, or after a
separator that is a whole line. -/
inductive AddsIdle : String → String → Prop
  | start {idle : List (List Char)} {s : String} (hidle : ∀ line ∈ idle, IsIdle line) :
      AddsIdle s (String.ofList (idle ++ linesOf s.toList).flatten)
  | before {idle pre post : List (List Char)} {line : List Char} {s : String}
      (hidle : ∀ line ∈ idle, IsIdle line) (hs : linesOf s.toList = pre ++ line :: post)
      (hsep : isSeparator line = true) :
      AddsIdle s (String.ofList (pre ++ (idle ++ line :: post)).flatten)
  | after {idle pre post : List (List Char)} {line : List Char} {s : String}
      (hidle : ∀ line ∈ idle, IsIdle line) (hs : linesOf s.toList = pre ++ line :: post)
      (hsep : isSeparator line = true) (hline : EndsLine line) :
      AddsIdle s (String.ofList (pre ++ line :: (idle ++ post)).flatten)

/-! ## Lemmas: lines -/

variable {lines idle pre post : List (List Char)} {line s : List Char}

theorem texts_eq_textsOfLines (s : List Char) : texts s = textsOfLines (linesOf s) := texts_eq s

/-! ## Lemmas: line ends -/

theorem respaces_returned : Respaces returned := by
  refine ⟨fun c hc => ?_, fun c => ?_, fun c hc => ?_⟩
  · refine if_neg ?_
    rintro rfl
    cases hc
  · rw [returned]
    split <;> exact List.cons_ne_nil _ _
  · rw [returned]
    split
    · rfl
    · simp [hc]

theorem linesOf_returned (s : List Char) :
    linesOf (s.flatMap returned) = (linesOf s).map (·.flatMap returned) := by
  induction s with
  | nil => rfl
  | cons c s ih =>
    rw [List.flatMap_cons, linesOf]
    by_cases hc : c = '\n'
    · subst hc
      rw [if_pos rfl, List.map_cons, ← ih]
      have hreturn : '\n' ∉ ['\r'] := by decide
      exact linesOf_line hreturn (s.flatMap returned)
    · rw [if_neg hc, returned, if_neg hc, List.singleton_append, linesOf, if_neg hc, ih]
      cases linesOf s with
      | nil => simp [returned, hc]
      | cons line lines => simp [returned, hc]

theorem splitOnP_map {α β : Type} (p : β → Bool) (f : α → β) (l : List α) :
    (l.map f).splitOnP p = (l.splitOnP fun a => p (f a)).map (·.map f) := by
  induction l with
  | nil => rfl
  | cons a l ih =>
    rw [List.map_cons, List.splitOnP_cons_eq_if_modifyHead, List.splitOnP_cons_eq_if_modifyHead, ih]
    split
    · rfl
    · cases l.splitOnP fun a => p (f a) <;> simp

namespace Respaces

variable {g : Char → List Char} (hg : Respaces g)
include hg

/-- A line separates after a change of blanks if it does so before it. -/
theorem isSeparator_eq (line : List Char) :
    isSeparator (line.flatMap g) = isSeparator line := by
  have hblank : ∀ (t : List Char) (c : Char), c ∈ t → isBlank c = true →
      t.map Char.toUpper ≠ ['G', 'O'] := by
    intro t c hmem hc hupper
    have hmap : c ∈ t.map Char.toUpper := by
      rw [← toUpper_of_isBlank hc]
      exact List.mem_map_of_mem hmem
    rw [hupper] at hmap
    simp only [List.mem_cons, List.not_mem_nil, or_false] at hmap
    rcases hmap with rfl | rfl <;> cases hc
  rw [isSeparator, isSeparator, hg.trimBlank_eq]
  generalize trimBlank line = t
  by_cases ht : ∃ c ∈ t, isBlank c = true
  · -- a blank within a text keeps it from being a separator
    obtain ⟨c, hmem, hc⟩ := ht
    obtain ⟨d, b, hd⟩ := List.exists_cons_of_ne_nil (hg.ne_nil c)
    have hdblank := hg.isAllBlank c hc
    rw [hd, isAllBlank_cons, Bool.and_eq_true] at hdblank
    have hdmem : d ∈ t.flatMap g := List.mem_flatMap.2 ⟨c, hmem, hd ▸ List.mem_cons_self⟩
    rw [beq_eq_false_iff_ne.2 (hblank t c hmem hc),
      beq_eq_false_iff_ne.2 (hblank _ d hdmem hdblank.1)]
  · rw [hg.flatMap_of_nonblank fun c hc => Bool.eq_false_iff.2 fun hb => ht ⟨c, hc, hb⟩]

theorem textsOfLines_eq (lines : List (List Char)) :
    textsOfLines (lines.map (·.flatMap g)) = (textsOfLines lines).map (·.flatMap g) := by
  have hflatten : ∀ ls : List (List Char),
      (ls.map (·.flatMap g)).flatten = ls.flatten.flatMap g := by
    intro ls
    induction ls with
    | nil => rfl
    | cons l ls ih =>
      rw [List.map_cons, List.flatten_cons, ih, List.flatten_cons, List.flatMap_append]
  rw [textsOfLines, textsOfLines, splitOnP_map, funext hg.isSeparator_eq]
  generalize lines.splitOnP isSeparator = pieces
  induction pieces with
  | nil => rfl
  | cons piece pieces ih =>
    simp only [List.map_cons, List.filter_cons, hflatten, hg.isAllBlank_flatMap]
    split
    · rw [List.map_cons, List.map_cons, List.map_cons, hg.trimBlank_eq, ih]
    · exact ih

/-- The routine of a text whose blanks are changed. -/
theorem routineOfBatch?_eq (path : String) (index : Nat) (t : List Char) :
    routineOfBatch? path index (t.flatMap g) =
      (routineOfBatch? path index t).map fun r =>
        { r with name := String.ofList (r.name.toList.flatMap g),
                 definition := String.ofList (r.definition.toList.flatMap g) } := by
  have hrespaced : Respaced g t (t.flatMap g) := ⟨[], rfl, (List.append_nil _).symm⟩
  rw [routineOfBatch?, routineOfBatch?, headerFrom?_respaced hg hrespaced, hg.trimBlank_eq]
  cases headerFrom? false t with
  | none => rfl
  | some header => simp [Header.respace]

end Respaces

/-- The texts of a script whose lines end with carriage returns. -/
theorem texts_returned (s : List Char) :
    texts (s.flatMap returned) = (texts s).map (·.flatMap returned) := by
  rw [texts_eq_textsOfLines, linesOf_returned, respaces_returned.textsOfLines_eq,
    ← texts_eq_textsOfLines]

theorem routinesOfScript_withReturns (path script : String) :
    routinesOfScript path (withReturns script) = (routinesOfScript path script).map fun r =>
      { r with name := withReturns r.name, definition := withReturns r.definition } := by
  rw [routinesOfScript_eq_texts, routinesOfScript_eq_texts, withReturns, String.toList_ofList,
    texts_returned, routinesOfTexts, routinesOfTexts, List.zipIdx_map, List.filterMap_map,
    List.map_filterMap]
  congr 1
  funext x
  exact respaces_returned.routineOfBatch?_eq path x.2 x.1

/-! ## Lemmas: idle lines -/

theorem textsOfLines_append {line : List Char} (h : isSeparator line = true)
    (pre post : List (List Char)) :
    textsOfLines (pre ++ line :: post) = textsOfLines pre ++ textsOfLines post := by
  rw [textsOfLines, List.splitOnP_append_cons _ _ h, List.map_append, List.filter_append,
    List.map_append]
  rfl

/-- Idle lines at the front. -/
theorem textsOfLines_idle (hidle : ∀ line ∈ idle, IsIdle line) (lines : List (List Char)) :
    textsOfLines (idle ++ lines) = textsOfLines lines := by
  induction idle with
  | nil => rfl
  | cons line idle ih =>
    obtain ⟨-, hline⟩ := hidle line List.mem_cons_self
    have hrest := ih fun m hm => hidle m (List.mem_cons_of_mem line hm)
    rcases hline with hsep | hblank
    · exact (textsOfLines_append hsep [] _).trans hrest
    · rw [← hrest, List.cons_append, textsOfLines, textsOfLines, List.splitOnP_cons_eq_if_modifyHead,
        isSeparator_of_isAllBlank hblank, if_neg Bool.false_ne_true]
      cases (idle ++ lines).splitOnP isSeparator with
      | nil => rfl
      | cons piece pieces =>
        simp only [List.modifyHead_cons, List.map_cons, List.filter_cons, List.flatten_cons,
          isAllBlank_append, hblank, Bool.true_and]
        split
        · rw [List.map_cons, List.map_cons, trimBlank_append_left hblank]
        · rfl

theorem exists_splitOnP_concat {α : Type} {p : α → Bool} {b : α} (hb : p b = false) (l : List α) :
    ∃ pieces piece, l.splitOnP p = pieces ++ [piece] ∧
      (l ++ [b]).splitOnP p = pieces ++ [piece ++ [b]] := by
  induction l with
  | nil =>
    refine ⟨[], [], rfl, ?_⟩
    rw [List.nil_append, List.splitOnP_cons_eq_if_modifyHead, hb]
    rfl
  | cons a l ih =>
    obtain ⟨pieces, piece, hl, hlb⟩ := ih
    rw [List.cons_append, List.splitOnP_cons_eq_if_modifyHead, List.splitOnP_cons_eq_if_modifyHead,
      hl, hlb]
    split
    · exact ⟨[] :: pieces, piece, rfl, rfl⟩
    · cases pieces with
      | nil => exact ⟨[], a :: piece, rfl, rfl⟩
      | cons first pieces => exact ⟨(a :: first) :: pieces, piece, rfl, rfl⟩

/-- Idle lines at the end. -/
theorem textsOfLines_append_idle (hidle : ∀ line ∈ idle, IsIdle line) (lines : List (List Char)) :
    textsOfLines (lines ++ idle) = textsOfLines lines := by
  induction idle generalizing lines with
  | nil => rw [List.append_nil]
  | cons line idle ih =>
    obtain ⟨-, hline⟩ := hidle line List.mem_cons_self
    rw [List.append_cons, ih (fun m hm => hidle m (List.mem_cons_of_mem line hm))]
    rcases hline with hsep | hblank
    · exact (textsOfLines_append hsep lines []).trans (List.append_nil _)
    · obtain ⟨pieces, piece, hl, hlb⟩ :=
        exists_splitOnP_concat (isSeparator_of_isAllBlank hblank) lines
      rw [textsOfLines, textsOfLines, hl, hlb]
      simp only [List.map_append, List.filter_append, List.map_cons, List.map_nil,
        List.flatten_append, List.flatten_singleton, List.filter_cons, List.filter_nil,
        isAllBlank_append, hblank, Bool.and_true]
      split
      · simp only [List.map_cons, List.map_nil, trimBlank_append_right hblank]
      · rfl

theorem texts_flatten (h : AreLines lines) : texts lines.flatten = textsOfLines lines := by
  rw [texts_eq_textsOfLines, linesOf_flatten h]

/-- Idle lines add no text and take none. -/
theorem AddsIdle.texts_eq {script script' : String} (h : AddsIdle script script') :
    texts script'.toList = texts script.toList := by
  rw [texts_eq_textsOfLines script.toList]
  have hare := areLines_linesOf script.toList
  cases h with
  | start hidle =>
    rw [String.toList_ofList, texts_flatten (areLines_append (fun m hm => (hidle m hm).1) hare),
      textsOfLines_idle hidle]
  | @before idle pre post line _ hidle hs hsep =>
    rw [hs] at hare ⊢
    obtain ⟨hpre, hpost⟩ := hare.of_append
    have hnew : AreLines (pre ++ (idle ++ line :: post)) :=
      areLines_append hpre (areLines_append (fun m hm => (hidle m hm).1) hpost)
    rw [String.toList_ofList, texts_flatten hnew, ← List.append_assoc, textsOfLines_append hsep,
      textsOfLines_append hsep, textsOfLines_append_idle hidle]
  | @after idle pre post line _ hidle hs hsep hline =>
    rw [hs] at hare ⊢
    obtain ⟨hpre, hpost⟩ := hare.of_append
    have hwhole := hpost.of_endsLine hline
    have hone : ∀ m ∈ [line], IsLine m := List.forall_mem_singleton.2 hwhole.1
    have hnew : AreLines (pre ++ line :: (idle ++ post)) :=
      areLines_append hpre (areLines_append hone
        (areLines_append (fun m hm => (hidle m hm).1) hwhole.2))
    rw [String.toList_ofList, texts_flatten hnew, textsOfLines_append hsep,
      textsOfLines_append hsep, textsOfLines_idle hidle]

/-! ## Top theorem (proved from the lemmas above) -/

/-- **The layout of a script is nothing to its routines.** Carriage returns at the ends of its lines
come into their texts and change nothing else, and idle lines beside its separators change
nothing. -/
theorem routinesOfScript_layout (path script : String) :
    (routinesOfScript path (withReturns script) = (routinesOfScript path script).map fun r =>
        { r with name := withReturns r.name, definition := withReturns r.definition }) ∧
      ∀ script', Relation.ReflTransGen AddsIdle script script' →
        routinesOfScript path script' = routinesOfScript path script := by
  refine ⟨routinesOfScript_withReturns path script, fun script' h => ?_⟩
  have htexts : texts script'.toList = texts script.toList := by
    induction h with
    | refl => rfl
    | tail _ hstep ih => rw [hstep.texts_eq, ih]
  rw [routinesOfScript_eq_texts, routinesOfScript_eq_texts, htexts]

theorem routinesOfScript_layout_sample :
    Relation.ReflTransGen AddsIdle "create proc p as\n GO\nalter function f as"
        "\nGo\ncreate proc p as\n\t\n GO\n go \nalter function f as" ∧
      (routinesOfScript "a.sql" "create proc p as\n GO\nalter function f as").map (·.name) =
        ["p", "f"] ∧
      routinesOfScript "a.sql" "\nGo\ncreate proc p as\n\t\n GO\n go \nalter function f as" =
        routinesOfScript "a.sql" "create proc p as\n GO\nalter function f as" := by
  have hfirst : ∀ line ∈ [['\n'], ['G', 'o', '\n']], IsIdle line := by
    have hnewline : IsIdle ['\n'] := ⟨⟨[], by decide, rfl⟩, .inr (by decide)⟩
    have hgo : IsIdle ['G', 'o', '\n'] := ⟨⟨['G', 'o'], by decide, rfl⟩, .inl (by decide)⟩
    simp [hnewline, hgo]
  have hblank : ∀ line ∈ [['\t', '\n']], IsIdle line :=
    List.forall_mem_singleton.2 ⟨⟨['\t'], by decide, rfl⟩, .inr (by decide)⟩
  have hspaced : ∀ line ∈ [[' ', 'g', 'o', ' ', '\n']], IsIdle line :=
    List.forall_mem_singleton.2 ⟨⟨[' ', 'g', 'o', ' '], by decide, rfl⟩, .inl (by decide)⟩
  have hstart : AddsIdle "create proc p as\n GO\nalter function f as"
      "\nGo\ncreate proc p as\n GO\nalter function f as" := .start hfirst
  have hbefore : AddsIdle "\nGo\ncreate proc p as\n GO\nalter function f as"
      "\nGo\ncreate proc p as\n\t\n GO\nalter function f as" := by
    have hlines : linesOf "\nGo\ncreate proc p as\n GO\nalter function f as".toList =
        [['\n'], ['G', 'o', '\n'], "create proc p as\n".toList] ++
          [' ', 'G', 'O', '\n'] :: ["alter function f as".toList] := rfl
    exact .before hblank hlines (by decide)
  have hafter : AddsIdle "\nGo\ncreate proc p as\n\t\n GO\nalter function f as"
      "\nGo\ncreate proc p as\n\t\n GO\n go \nalter function f as" := by
    have hlines : linesOf "\nGo\ncreate proc p as\n\t\n GO\nalter function f as".toList =
        [['\n'], ['G', 'o', '\n'], "create proc p as\n".toList, ['\t', '\n']] ++
          [' ', 'G', 'O', '\n'] :: ["alter function f as".toList] := rfl
    exact .after hspaced hlines (by decide) (endsLine_concat [' ', 'G', 'O'])
  have hadds := ((Relation.ReflTransGen.single hstart).tail hbefore).tail hafter
  exact ⟨hadds, by decide +kernel, (routinesOfScript_layout "a.sql" _).2 _ hadds⟩

end RoutineParams
