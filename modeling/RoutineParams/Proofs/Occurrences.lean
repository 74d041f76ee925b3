import RoutineParams.Proofs.Continuation
import RoutineParams.Proofs.Lossless

/-!
# Where parameters stand in the text

Everything that is said of a parameter is written in the text of its routine: its name at one
offset, its default behind the name, and the next parameter behind both. Two names never touch, so
that there is an offset between them where a parameter has no default.

    '@' ∉ definition → (extract id definition).parameters = []   (parameters_extract_of_not_mem)
    the parameters are those of ordered places in the text            (parameters_extract_occur)
-/

namespace RoutineParams

/-! ## Places of texts -/

/-- A text at an offset. -/
structure Occurrence where
  offset : Nat
  text : String
deriving DecidableEq, Repr

namespace Occurrence

/-- The text stands in `s` at its offset. -/
def StandsIn (s : List Char) (o : Occurrence) : Prop := o.text.toList <+: s.drop o.offset

/-- One text starts before another one and does not reach into it. -/
def Before (o p : Occurrence) : Prop :=
  o.offset < p.offset ∧ o.offset + o.text.length ≤ p.offset

end Occurrence

/-- Where the name and the default of a parameter stand. -/
structure ParameterPlaces where
  name : Occurrence
  default : Occurrence
deriving DecidableEq, Repr

/-- The parameter of the routine `id` that stands in its places. -/
def ParameterPlaces.parameter (id : ObjectId) (p : ParameterPlaces) : Parameter :=
  ⟨id, p.name.text, p.default.text⟩

/-- Names and defaults in turn. -/
def occurrences (places : List ParameterPlaces) : List Occurrence :=
  places.flatMap fun p => [p.name, p.default]

/-! ## Lemmas: texts of tokens -/

theorem occurrences_cons (p : ParameterPlaces) (places : List ParameterPlaces) :
    occurrences (p :: places) = p.name :: p.default :: occurrences places := rfl

theorem joined_append (a b : List Token) : joined (a ++ b) = joined a ++ joined b := by
  induction a with
  | nil => simp [joined]
  | cons t a ih => rw [List.cons_append, joined_cons, joined_cons, ih, String.append_assoc]

theorem prefix_drop_append {x y s : List Char} {n : Nat} (h : x ++ y <+: s.drop n) :
    x <+: s.drop n ∧ y <+: s.drop (n + x.length) := by
  refine ⟨(List.prefix_append x y).trans h, ?_⟩
  obtain ⟨z, hz⟩ := h
  rw [← List.drop_drop, ← hz, List.append_assoc, List.drop_left]
  exact List.prefix_append y z

/-- Where the texts of tokens stand, the text of each of them stands. -/
theorem exists_offset_of_mem {s : List Char} {n : Nat} {tokens : List Token} {t : Token}
    (ht : t ∈ tokens) (h : (joined tokens).toList <+: s.drop n) :
    ∃ k, n ≤ k ∧ k + t.text.length ≤ n + (joined tokens).length ∧
      t.text.toList <+: s.drop k := by
  obtain ⟨a, b, rfl⟩ := List.append_of_mem ht
  rw [joined_append, joined_cons, String.toList_append, String.toList_append] at h
  refine ⟨n + (joined a).toList.length, by omega, ?_, (prefix_drop_append
    (prefix_drop_append h).2).1⟩
  rw [joined_append, joined_cons, String.length_append, String.length_append,
    String.length_toList]
  omega

/-! ## Lemmas: defaults -/

theorem mem_of_lastLiteral? {segment : List Token} {text : String}
    (h : lastLiteral? segment = some text) :
    ∃ t ∈ segment, t.role = .literalCandidate ∧ t.text = text := by
  obtain ⟨t, ht, rfl⟩ := Option.map_eq_some_iff.1 h
  obtain ⟨hmem, hrole⟩ := List.mem_filter.1 (List.mem_of_getLast? ht)
  exact ⟨t, hmem, by simpa using hrole, rfl⟩

/-- The default that a segment gives is the text of one of its literals, or there is none. -/
theorem defaultIn_mem (segment : List Token) :
    defaultIn segment = "" ∨
      ∃ t ∈ segment, t.role = .literalCandidate ∧ t.text = defaultIn segment := by
  unfold defaultIn
  cases hlast : lastLiteral? (segment.dropWhile fun t => !t.isAssignment) with
  | none => exact Or.inl rfl
  | some text =>
    obtain ⟨t, ht, hrole, rfl⟩ := mem_of_lastLiteral? hlast
    exact Or.inr ⟨t, (List.dropWhile_sublist _).subset ht, hrole, rfl⟩

/-- Where a segment stands, its default stands: at its start if the default is empty. -/
theorem exists_offset_of_defaultIn {s : List Char} {n : Nat} {segment : List Token}
    (hne : ∀ t ∈ segment, t.text ≠ "") (h : (joined segment).toList <+: s.drop n) :
    ∃ k, n ≤ k ∧ k + (defaultIn segment).length ≤ n + (joined segment).length ∧
      (segment ≠ [] → k < n + (joined segment).length) ∧
      (defaultIn segment).toList <+: s.drop k := by
  have hpos : ∀ t ∈ segment, 0 < t.text.length := fun t ht =>
    Nat.pos_of_ne_zero fun h => hne t ht (String.length_eq_zero_iff.1 h)
  rcases defaultIn_mem segment with hempty | ⟨t, ht, -, hdefault⟩
  · refine ⟨n, le_rfl, by simp [hempty], fun hsegment => ?_, by simp [hempty]⟩
    obtain ⟨t, a, rfl⟩ := List.exists_cons_of_ne_nil hsegment
    have := hpos t List.mem_cons_self
    rw [joined_cons, String.length_append]
    omega
  · obtain ⟨k, hn, hk, hstands⟩ := exists_offset_of_mem ht h
    have := hpos t ht
    rw [← hdefault]
    exact ⟨k, hn, hk, fun _ => by omega, hstands⟩

/-! ## Lemmas: markers -/

/-- What is declared has the text of a marker as its name. -/
theorem exists_marker_of_mem_declaredBy {id : ObjectId} {tokens : List Token} {p : Parameter}
    (h : p ∈ declaredBy id tokens) : ∃ t ∈ tokens, t.role = .parameterMarker ∧ t.text = p.name := by
  induction tokens with
  | nil => cases h
  | cons t tokens ih =>
    rw [declaredBy_cons, List.mem_append] at h
    rcases h with h | h
    · split at h
      · rename_i hrole
        unfold Declaration.close at h
        split at h
        · cases h
        · obtain rfl := List.mem_singleton.1 h
          exact ⟨t, List.mem_cons_self, hrole, rfl⟩
      · cases h
    · obtain ⟨u, hu, hrole⟩ := ih h
      exact ⟨u, List.mem_cons_of_mem t hu, hrole⟩

/-- A marker is a piece of its own. -/
theorem exists_piece_of_marker {ps : List Piece} {t : Token} (ht : t ∈ joinAmounts ps)
    (hrole : t.role = .parameterMarker) : ∃ p ∈ ps, p.token = t := by
  fun_induction joinAmounts ps with
  | case1 => cases ht
  | case2 a => exact ⟨a, List.mem_cons_self, (List.mem_singleton.1 ht).symm⟩
  | case3 a b ps hfraction ih =>
    rcases List.mem_cons.1 ht with rfl | ht
    · cases hrole
    · obtain ⟨p, hp, rfl⟩ := ih ht
      exact ⟨p, by simp [hp], rfl⟩
  | case4 a b ps hfraction ih =>
    rcases List.mem_cons.1 ht with rfl | ht
    · exact ⟨a, List.mem_cons_self, rfl⟩
    · obtain ⟨p, hp, rfl⟩ := ih ht
      exact ⟨p, List.mem_cons_of_mem a hp, rfl⟩

namespace Cuts

/-- No part of a word follows a piece that declares a parameter. -/
theorem head?_of_role_marker {r s : List Char} {p : Piece} {ps : List Piece}
    (h : Cuts r s (p :: ps)) (hrole : p.token.role = .parameterMarker) :
    ∀ d ∈ (textOf ps).head?, isWordPart d = false := by
  cases h with
  | @cons c t s form _ first rest =>
    have htells := lexeme_tells first
    cases form with
    | word letters =>
      obtain ⟨-, hstop, -⟩ := word_of_tells htells
      intro d hd
      rw [rest.textOf_eq] at hd
      exact hstop d (by rw [Option.mem_def, List.head?_append, hd]; rfl)
    | _ => exact absurd hrole (isInert_of_tells htells (by simp)).2

/-- Two tokens that declare parameters never touch. -/
theorem isChain_joinAmounts {r s : List Char} {ps : List Piece} (h : Cuts r s ps) :
    (joinAmounts ps).IsChain fun t u =>
      t.role = .parameterMarker → u.role ≠ .parameterMarker := by
  fun_induction joinAmounts ps generalizing s with
  | case1 => exact .nil
  | case2 a => exact .singleton _
  | case3 a b ps hfraction ih =>
    cases h with
    | cons _ h =>
      cases h with
      | cons _ h => exact (ih h).cons fun u _ hrole => (by cases hrole)
  | case4 a b ps hfraction ih =>
    have hnext := h.head?_of_role_marker
    have hb := h.of_role_marker (p := b) (by simp)
    refine List.IsChain.cons ?_ fun u hu ha hrole => ?_
    · cases h with
      | cons _ h => exact ih h
    · -- the next token is that of the next piece, and it starts with a sign `@`
      have hu' : u = b.token := by
        cases ps with
        | nil => exact (Option.some.inj hu).symm
        | cons q ps =>
          rw [joinAmounts] at hu
          split at hu
          · obtain rfl := Option.some.inj hu
            cases hrole
          · exact (Option.some.inj hu).symm
      subst hu'
      obtain ⟨-, ⟨t, ht⟩, -⟩ := hb hrole
      have hat := hnext ha '@' (by rw [textOf_cons, ← ht]; rfl)
      revert hat
      decide

end Cuts

/-! ## Lemmas: places -/

/-- The places of what is declared by tokens that stand in a text. -/
theorem exists_places (id : ObjectId) {s : List Char} {tokens : List Token} {n : Nat}
    (hne : ∀ t ∈ tokens, t.text ≠ "")
    (hapart : tokens.IsChain fun t u => t.role = .parameterMarker → u.role ≠ .parameterMarker)
    (h : (joined tokens).toList <+: s.drop n) :
    ∃ places : List ParameterPlaces, declaredBy id tokens = places.map (·.parameter id) ∧
      (∀ o ∈ occurrences places, o.StandsIn s ∧
        n + (joined (segmentOf tokens)).length ≤ o.offset) ∧
      (occurrences places).Pairwise Occurrence.Before := by
  induction tokens generalizing n with
  | nil => exact ⟨[], rfl, by simp [occurrences], .nil⟩
  | cons t tokens ih =>
    have hpos : 0 < t.text.length :=
      Nat.pos_of_ne_zero fun h => hne t List.mem_cons_self (String.length_eq_zero_iff.1 h)
    rw [joined_cons, String.toList_append] at h
    obtain ⟨hfirst, hrest⟩ := prefix_drop_append h
    rw [String.length_toList] at hrest
    have hne' : ∀ u ∈ tokens, u.text ≠ "" := fun u hu => hne u (List.mem_cons_of_mem t hu)
    obtain ⟨places, hplaces, hstands, hordered⟩ := ih hne' hapart.tail hrest
    rw [declaredBy_cons, segmentOf_cons]
    by_cases hrole : t.role = .parameterMarker
    · have hleads : segmentOf tokens <+: tokens := List.takeWhile_prefix _
      have hsegment : (joined (segmentOf tokens)).toList <+: s.drop (n + t.text.length) := by
        obtain ⟨after, hafter⟩ := hleads
        rw [← hafter, joined_append, String.toList_append] at hrest
        exact (List.prefix_append _ _).trans hrest
      obtain ⟨k, hk, hend, hlt, hdefault⟩ :=
        exists_offset_of_defaultIn (fun u hu => hne' u (hleads.subset hu)) hsegment
      -- where another parameter follows something stands between
      have hbetween : places ≠ [] → segmentOf tokens ≠ [] := by
        intro hmore hnone
        cases tokens with
        | nil => exact hmore (List.map_eq_nil_iff.1 hplaces.symm)
        | cons u tokens =>
          have hu := (List.isChain_cons.1 hapart).1 u rfl hrole
          rw [segmentOf_cons, if_neg hu] at hnone
          cases hnone
      rw [if_pos hrole, if_pos hrole, Declaration.close, if_neg (hne t List.mem_cons_self)]
      refine ⟨⟨⟨n, t.text⟩, ⟨k, defaultIn (segmentOf tokens)⟩⟩ :: places, ?_, ?_, ?_⟩
      · rw [hplaces]
        rfl
      · intro o ho
        rw [occurrences_cons, List.mem_cons, List.mem_cons] at ho
        rcases ho with rfl | rfl | ho
        · exact ⟨hfirst, by simp [joined]⟩
        · exact ⟨hdefault, by simp [joined]; omega⟩
        · exact ⟨(hstands o ho).1, by have := (hstands o ho).2; simp [joined]; omega⟩
      · rw [occurrences_cons, List.pairwise_cons, List.pairwise_cons]
        refine ⟨fun o ho => ?_, fun o ho => ?_, hordered⟩
        · have ho' : n + t.text.length ≤ o.offset := by
            rcases List.mem_cons.1 ho with rfl | ho
            · exact hk
            · have := (hstands o ho).2
              omega
          exact ⟨Nat.lt_of_lt_of_le (Nat.lt_add_of_pos_right hpos) ho', ho'⟩
        · have ho' := (hstands o ho).2
          have hsome : places ≠ [] := by rintro rfl; cases ho
          have hlt' := hlt (hbetween hsome)
          exact ⟨Nat.lt_of_lt_of_le hlt' ho', Nat.le_trans hend ho'⟩
    · rw [if_neg hrole, if_neg hrole, joined_cons, String.length_append]
      refine ⟨places, hplaces, fun o ho => ⟨(hstands o ho).1, ?_⟩, hordered⟩
      have := (hstands o ho).2
      omega

/-- The tokens of a text are those of pieces of its start. -/
theorem exists_cuts_of_lex (definition : String) :
    ∃ a r ps, definition.toList = a ++ r ∧ Cuts [] a ps ∧
      (lex definition).tokens = joinAmounts ps := by
  by_cases hnone : (lex definition).tokens = []
  · exact ⟨[], definition.toList, [], rfl, .nil, hnone⟩
  · have hnil : definition.toList = [] ++ definition.toList := rfl
    obtain ⟨a, r, hs, -, ps, hcuts, htokens⟩ := exists_cuts_of_tokens _ .nil hnil (Or.inr hnone)
    exact ⟨a, r, ps, hs, hcuts, htokens⟩

theorem isParameterName_of_mem_parameters {id : ObjectId} {definition : String} {p : Parameter}
    (h : p ∈ (extract id definition).parameters) : IsParameterName p.name.toList := by
  obtain ⟨a, r, ps, -, hcuts, htokens⟩ := exists_cuts_of_lex definition
  have h : p ∈ (scanTokens id (lex definition).tokens).parameters := h
  rw [parameters_scanTokens, htokens] at h
  obtain ⟨t, ht, hrole, hname⟩ := exists_marker_of_mem_declaredBy h
  obtain ⟨q, hq, rfl⟩ := exists_piece_of_marker ((List.takeWhile_prefix _).subset ht) hrole
  rw [← hname]
  exact (String.toList_ofList (l := q.text)).symm ▸ hcuts.of_role_marker hq hrole

/-- The places of the parameters of a text. -/
theorem exists_places_of_extract (id : ObjectId) (definition : String) :
    ∃ places : List ParameterPlaces,
      (extract id definition).parameters = places.map (·.parameter id) ∧
      (∀ o ∈ occurrences places, o.StandsIn definition.toList) ∧
      (occurrences places).Pairwise Occurrence.Before := by
  obtain ⟨a, r, ps, hs, hcuts, htokens⟩ := exists_cuts_of_lex definition
  have hlist : listOf (lex definition).tokens <+: (lex definition).tokens :=
    List.takeWhile_prefix _
  have hstands : (joined (listOf (lex definition).tokens)).toList <+:
      definition.toList.drop 0 := by
    obtain ⟨after, hafter⟩ := hlist
    have hall : (joined (lex definition).tokens).toList = a := by
      rw [htokens, joined_joinAmounts, hcuts.textOf_eq, String.toList_ofList]
    rw [← hafter, joined_append, String.toList_append] at hall
    rw [List.drop_zero, hs, ← hall, List.append_assoc]
    exact List.prefix_append _ _
  have hne : ∀ t ∈ listOf (lex definition).tokens, t.text ≠ "" := fun t ht =>
    text_ne_empty_of_mem_tokens _ definition t (hlist.subset ht)
  obtain ⟨after, hafter⟩ := hlist
  have hchain := (hafter.trans htokens ▸ hcuts.isChain_joinAmounts).left_of_append
  obtain ⟨places, hplaces, hplaced, hordered⟩ := exists_places id hne hchain hstands
  exact ⟨places, (parameters_scanTokens id _).trans hplaces, fun o ho => (hplaced o ho).1, hordered⟩

/-- A text without the sign `@` declares nothing. -/
theorem parameters_extract_of_not_mem (id : ObjectId) {definition : String}
    (h : '@' ∉ definition.toList) : (extract id definition).parameters = [] := by
  obtain ⟨places, hplaces, hstands, -⟩ := exists_places_of_extract id definition
  cases places with
  | nil => exact hplaces
  | cons p places =>
    have hp : p.parameter id ∈ (extract id definition).parameters := by simp [hplaces]
    obtain ⟨-, hat, -⟩ := isParameterName_of_mem_parameters hp
    have hname : p.name.text.toList <+: definition.toList.drop p.name.offset :=
      hstands p.name (by simp [occurrences_cons])
    have hmem : '@' ∈ definition.toList.drop p.name.offset :=
      (hat.trans hname).subset List.mem_cons_self
    exact absurd (List.mem_of_mem_drop hmem) h

/-! ## Top theorem (proved from the lemmas above) -/

/-- **Every parameter is written in the text.** For any text, whole or cut short by a fault: names
and defaults stand at growing offsets, name and default in turn, none reaching into the next; all
parameters are those of the routine, and each name is one sign `@` with something behind it. So a
text without that sign has no parameter. -/
theorem parameters_extract_occur (id : ObjectId) (definition : String) :
    (∃ places : List ParameterPlaces,
      (extract id definition).parameters = places.map (·.parameter id) ∧
      (∀ o ∈ occurrences places, o.StandsIn definition.toList) ∧
      (occurrences places).Pairwise Occurrence.Before) ∧
    (∀ p ∈ (extract id definition).parameters,
      p.objectId = id ∧ IsParameterName p.name.toList) ∧
    ('@' ∉ definition.toList → (extract id definition).parameters = []) := by
  refine ⟨exists_places_of_extract id definition, fun p hp => ⟨?_, ?_⟩,
    parameters_extract_of_not_mem id⟩
  · obtain ⟨places, hplaces, -, -⟩ := exists_places_of_extract id definition
    rw [hplaces] at hp
    obtain ⟨place, -, rfl⟩ := List.mem_map.1 hp
    rfl
  · exact isParameterName_of_mem_parameters hp

end RoutineParams
