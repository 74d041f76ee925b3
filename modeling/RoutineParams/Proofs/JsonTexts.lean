import RoutineParams.Proofs.JsonScalars

/-!
# JSON values read from their texts

A value is read as it was laid out: the reader skips the blanks between the parts of a value, so one
argument serves for both layouts, by induction on what can be read.

    j.IsReadable maxDepth → parse? (j.compact ++ blanks) = some j              (parse?_compact)
    j.IsReadable maxDepth → parse? (j.pretty ++ blanks) = some j                (parse?_pretty)
    j.IsReadable depth → no control character is in j.compact                 (le_of_mem_compact)
-/

namespace RoutineParams.Json

/-! ## Lemmas: numbers -/

section
attribute [local simp] readValue

/-- What starts as a number does is read as one. -/
theorem readValue_of_number (depth : Nat) {c : Char} {s : List Char}
    (h : c = '-' ∨ c.isDigit = true) : readValue depth (c :: s) = readNumber? (c :: s) := by
  have hne : ∀ d ∈ ['n', 't', 'f', '"', '[', '{'], c ≠ d := by
    intro d hd
    have hboth : d.isDigit = false ∧ '-' ≠ d := by
      simp only [List.mem_cons, List.not_mem_nil, or_false] at hd
      rcases hd with rfl | rfl | rfl | rfl | rfl | rfl <;> decide
    rcases h with rfl | h
    · exact hboth.2
    · exact ne_of_class h hboth.1
  simp only [List.forall_mem_cons] at hne
  obtain ⟨hnull, htrue, hfalse, hquote, harr, hobj, -⟩ := hne
  unfold readValue
  simp [*]

/-! ## Lemmas: items and members -/

variable {read : List Char → Option (Json × List Char)}

theorem readItems_skipSpace (read : List Char → Option (Json × List Char)) (fuel : Nat)
    (done : List Json) (s : List Char) :
    readItems read fuel done (skipSpace s) = readItems read fuel done s := by
  cases fuel with
  | zero => rfl
  | succ fuel => rw [readItems, readItems, skipSpace_skipSpace]

theorem readMembers_skipSpace (read : List Char → Option (Json × List Char)) (fuel : Nat)
    (done : List (String × Json)) (s : List Char) :
    readMembers read fuel done (skipSpace s) = readMembers read fuel done s := by
  unfold readMembers
  rw [skipSpace_skipSpace]

/-- Items are read one after the other. -/
theorem readItems_joined {part : Json → List Char} {items : List Json} (hne : items ≠ [])
    (hread : ∀ j ∈ items, ∀ rest, EndsNumber rest →
      read (skipSpace (part j ++ rest)) = some (j, rest))
    {gap : List Char} (hgap : ∀ c ∈ gap, isSpace c = true) (rest : List Char) {fuel : Nat}
    (hfuel : items.length ≤ fuel) (done : List Json) :
    readItems read fuel done (joined (items.map part) ++ (gap ++ ']' :: rest)) =
      some (.arr (done.reverse ++ items), rest) := by
  induction items generalizing fuel done with
  | nil => contradiction
  | cons j items ih =>
    obtain ⟨fuel, rfl⟩ : ∃ n, fuel = n + 1 := ⟨fuel - 1, by simp at hfuel; omega⟩
    cases items with
    | nil =>
      have hread := hread j List.mem_cons_self _
        (endsNumber_append hgap (endsNumber_cons (c := ']') (by decide) rest))
      rw [readItems, List.map_singleton, joined_singleton, hread]
      simp [skipSpace_append hgap, skipSpace_cons (c := ']') rfl]
    | cons k items =>
      have hread' := hread j List.mem_cons_self _ (endsNumber_cons (c := ',') (by decide)
        (joined ((k :: items).map part) ++ (gap ++ ']' :: rest)))
      have hnext := ih (List.cons_ne_nil _ _) (fun i hi => hread i (List.mem_cons_of_mem _ hi))
        (Nat.le_of_succ_le_succ hfuel) (j :: done)
      rw [joined_map_cons, List.append_assoc, List.cons_append, readItems, hread']
      simp only [Option.bind_eq_bind, Option.bind_some, skipSpace_cons (c := ',') rfl, hnext]
      simp

/-- Members with different names are read one after the other. -/
theorem readMembers_joined {part : Json → List Char} {members : List (String × Json)}
    (hne : members ≠ []) {before : List Char} (hbefore : ∀ c ∈ before, isSpace c = true)
    (hread : ∀ m ∈ members, ∀ rest, EndsNumber rest →
      read (skipSpace (part m.2 ++ rest)) = some (m.2, rest))
    {gap : List Char} (hgap : ∀ c ∈ gap, isSpace c = true) (rest : List Char) {fuel : Nat}
    (hfuel : members.length ≤ fuel) (done : List (String × Json))
    (hnodup : ((done ++ members).map Prod.fst).Nodup) :
    readMembers read fuel done (joined (members.map fun m =>
        before ++ (quote m.1 ++ ':' :: part m.2)) ++ (gap ++ '}' :: rest)) =
      some (.obj (done ++ members), rest) := by
  induction members generalizing fuel done with
  | nil => contradiction
  | cons m members ih =>
    obtain ⟨fuel, rfl⟩ : ∃ n, fuel = n + 1 := ⟨fuel - 1, by simp at hfuel; omega⟩
    have hput : put done m.1 m.2 = done ++ [m] := by
      have hnew : ∀ d ∈ done, d.1 ≠ m.1 := by
        intro d hd heq
        rw [List.map_append, List.nodup_append] at hnodup
        exact hnodup.2.2 d.1 (List.mem_map_of_mem hd) m.1 (by simp) heq
      rw [put, List.filter_eq_self.2 (by simpa using hnew)]
    have hkey (s : List Char) : skipSpace (before ++ (quote m.1 ++ s)) =
        '"' :: (m.1.toList.flatMap escapeChar ++ '"' :: s) := by
      rw [skipSpace_append hbefore, quote]
      simp [skipSpace_cons (c := '"') rfl]
    cases members with
    | nil =>
      have hread := hread m List.mem_cons_self _
        (endsNumber_append hgap (endsNumber_cons (c := '}') (by decide) rest))
      rw [List.map_singleton, joined_singleton, List.append_assoc, List.append_assoc,
        List.cons_append, readMembers.eq_def]
      simp only [hkey, readText_quoted, Option.bind_eq_bind, Option.bind_some,
        skipSpace_cons (c := ':') rfl, hread]
      simp [skipSpace_append hgap, skipSpace_cons (c := '}') rfl, hput]
    | cons l members =>
      have hread' := hread m List.mem_cons_self _ (endsNumber_cons (c := ',') (by decide)
        (joined ((l :: members).map fun m => before ++ (quote m.1 ++ ':' :: part m.2)) ++
          (gap ++ '}' :: rest)))
      have hnext := ih (List.cons_ne_nil _ _) (fun i hi => hread i (List.mem_cons_of_mem _ hi))
        (Nat.le_of_succ_le_succ hfuel) (done ++ [m]) (by simpa using hnodup)
      rw [joined_map_cons, List.append_assoc, List.append_assoc, List.append_assoc,
        List.cons_append, List.cons_append, readMembers.eq_def]
      simp only [hkey, readText_quoted, Option.bind_eq_bind, Option.bind_some,
        skipSpace_cons (c := ':') rfl, hread', skipSpace_cons (c := ',') rfl, hput, hnext]
      simp

/-- An array is read if its items are. -/
theorem readValue_arr {depth : Nat} (part : Json → List Char) {j : Json} {items : List Json}
    (hread : ∀ i ∈ j :: items, ∀ rest, EndsNumber rest →
      readValue depth (skipSpace (part i ++ rest)) = some (i, rest))
    (hfirst : ∀ s, ∃ c t, skipSpace (part j ++ s) = c :: t ∧ c ≠ ']' ∧ s.length ≤ t.length)
    {gap : List Char} (hgap : ∀ c ∈ gap, isSpace c = true) (rest : List Char) :
    readValue (depth + 1) ('[' :: (joined ((j :: items).map part) ++ (gap ++ ']' :: rest))) =
      some (.arr (j :: items), rest) := by
  obtain ⟨tail, htail, hlength⟩ := exists_joined_cons part j items
  obtain ⟨c, t, hct, hc, hle⟩ := hfirst (tail ++ (gap ++ ']' :: rest))
  have hskip : skipSpace (joined ((j :: items).map part) ++ (gap ++ ']' :: rest)) = c :: t := by
    rw [htail, List.append_assoc, hct]
  have hfuel : (j :: items).length ≤ (c :: t).length := by
    simp only [List.length_append, List.length_cons] at hle ⊢
    omega
  have hitems := readItems_joined (List.cons_ne_nil _ _) hread hgap rest hfuel []
  rw [← readItems_skipSpace, hskip] at hitems
  rw [readValue, hskip]
  split
  · next heq => exact absurd (List.cons.inj heq).1 hc
  · exact hitems

/-- An object is read if the values of its members are. -/
theorem readValue_obj {depth : Nat} (part : Json → List Char) {m : String × Json}
    {members : List (String × Json)} {before : List Char}
    (hbefore : ∀ c ∈ before, isSpace c = true)
    (hread : ∀ l ∈ m :: members, ∀ rest, EndsNumber rest →
      readValue depth (skipSpace (part l.2 ++ rest)) = some (l.2, rest))
    {gap : List Char} (hgap : ∀ c ∈ gap, isSpace c = true) (rest : List Char)
    (hnodup : ((m :: members).map Prod.fst).Nodup) :
    readValue (depth + 1) ('{' :: (joined ((m :: members).map fun m =>
        before ++ (quote m.1 ++ ':' :: part m.2)) ++ (gap ++ '}' :: rest))) =
      some (.obj (m :: members), rest) := by
  obtain ⟨tail, htail, hlength⟩ := exists_joined_cons
    (fun m : String × Json => before ++ (quote m.1 ++ ':' :: part m.2)) m members
  obtain ⟨t, hskip, hle⟩ : ∃ t, skipSpace (joined ((m :: members).map fun m =>
      before ++ (quote m.1 ++ ':' :: part m.2)) ++ (gap ++ '}' :: rest)) = '"' :: t ∧
      members.length ≤ t.length := by
    rw [htail, List.append_assoc, List.append_assoc, skipSpace_append hbefore]
    exact ⟨_, skipSpace_cons (c := '"') rfl, by simp; omega⟩
  have hmembers := readMembers_joined (List.cons_ne_nil _ _) hbefore hread hgap rest
    (Nat.succ_le_succ hle) [] hnodup
  rw [← readMembers_skipSpace, hskip] at hmembers
  rw [readValue, hskip]
  exact hmembers

/-! ## Lemmas: values -/

/-- **A value is read as it was laid out.** -/
theorem readValue_write (l : Layout) {depth : Nat} {j : Json} (h : IsReadable depth j) (level : Nat)
    {rest : List Char} (hrest : EndsNumber rest) :
    readValue depth (l.write level j ++ rest) = some (j, rest) := by
  have hskip {depth : Nat} {i : Json} (hi : IsReadable depth i) (level : Nat) {gap : List Char}
      (hgap : ∀ c ∈ gap, isSpace c = true) (s : List Char) :
      skipSpace (gap ++ l.write level i ++ s) = l.write level i ++ s := by
    rw [List.append_assoc, skipSpace_append hgap]
    exact ((l.startsValue hi level).append s).skipSpace_eq
  induction h generalizing level rest with
  | null =>
    rw [l.write_scalar _ _ rfl]
    simp [scalar]
  | bool _ b =>
    rw [l.write_scalar _ _ rfl]
    cases b <;> simp [scalar]
  | @int depth n hn =>
    obtain ⟨c, s, hcs, hc⟩ := exists_decimalInt n
    have hnumber := readNumber?_decimalInt hn hrest
    rw [l.write_scalar _ _ rfl, scalar]
    rw [hcs, List.cons_append] at hnumber ⊢
    rw [readValue_of_number depth hc, hnumber]
  | str _ s =>
    rw [l.write_scalar _ _ rfl]
    simp [scalar, quote, readText_quoted]
  | @arr depth items hitems ih =>
    cases items with
    | nil =>
      rw [l.write_arr_nil]
      simp [skipSpace_cons (c := ']') rfl]
    | cons j items =>
      rw [l.write_arr level _ (List.cons_ne_nil _ _), List.cons_append, List.append_assoc,
        List.append_assoc]
      refine readValue_arr (fun j => l.gap (level + 1) ++ l.write (level + 1) j)
        (fun i hi rest hrest => ?_) (fun s => ?_) (l.gap_isSpace level) rest
      · rw [hskip (hitems i hi) _ (l.gap_isSpace _), ih i hi (level + 1) hrest]
      · rw [hskip (hitems j List.mem_cons_self) _ (l.gap_isSpace _)]
        obtain ⟨c, t, hct, -, hc⟩ := l.startsValue (hitems j List.mem_cons_self) (level + 1)
        exact ⟨c, t ++ s, by rw [hct, List.cons_append], hc, by simp⟩
  | @obj depth members hnodup hmembers ih =>
    cases members with
    | nil =>
      rw [l.write_obj_nil]
      simp [skipSpace_cons (c := '}') rfl]
    | cons m members =>
      rw [l.write_obj level _ (List.cons_ne_nil _ _), List.cons_append, List.append_assoc,
        List.append_assoc]
      refine readValue_obj (fun j => l.afterColon ++ l.write (level + 1) j) (l.gap_isSpace _)
        (fun i hi rest hrest => ?_) (l.gap_isSpace level) rest hnodup
      rw [hskip (hmembers i hi) _ l.afterColon_isSpace, ih i hi (level + 1) hrest]

end

/-- A text that a value was laid out in is read as this value, also with blanks behind. -/
theorem parse?_write (l : Layout) {j : Json} (h : IsReadable maxDepth j) (level : Nat)
    {s : List Char} (hs : ∀ c ∈ s, isSpace c = true) :
    parse? (String.ofList (l.write level j ++ s)) = some j := by
  have hend : skipSpace s = [] := (congrArg skipSpace s.append_nil).symm.trans (skipSpace_append hs)
  have hrest : EndsNumber s := by
    have hnil : EndsNumber [] := by simp [EndsNumber]
    simpa using endsNumber_append hs hnil
  rw [parse?, String.toList_ofList, ((l.startsValue h level).append s).skipSpace_eq,
    readValue_write l h level hrest]
  simp [hend]

theorem le_of_mem_escapeChar {c d : Char} (h : d ∈ escapeChar c) : 0x20 ≤ d.toNat := by
  have hdigit : ∀ n, n < 16 → 0x20 ≤ (lowerHexDigit n).toNat := by decide
  rcases escapeChar_cases c with ⟨e, hesc, -, he⟩ | ⟨hcontrol, hesc⟩ | ⟨-, -, hc, hesc⟩
  · rw [hesc] at h
    simp only [List.mem_cons, List.not_mem_nil, or_false] at h
    rcases h with rfl | rfl
    · decide
    · exact he
  · rw [hesc] at h
    simp only [List.mem_cons, List.not_mem_nil, or_false] at h
    rcases h with rfl | rfl | rfl | rfl | rfl | rfl
    any_goals decide
    · exact hdigit _ (by omega)
    · exact hdigit _ (by omega)
  · rw [hesc, List.mem_singleton] at h
    exact h ▸ hc

theorem le_of_mem_quote {s : String} {c : Char} (h : c ∈ quote s) : 0x20 ≤ c.toNat := by
  simp only [quote, List.mem_cons, List.mem_append, List.mem_flatMap, List.not_mem_nil,
    or_false] at h
  rcases h with rfl | ⟨d, -, hd⟩ | rfl
  · decide
  · exact le_of_mem_escapeChar hd
  · decide

theorem le_of_mem_decimalInt {n : Int} {c : Char} (h : c ∈ decimalInt n) : 0x20 ≤ c.toNat := by
  have hdigit : ∀ m, c ∈ RoutineParams.decimal m → 0x20 ≤ c.toNat := by
    intro m hm
    have hc := isDigit_of_mem_decimal hm
    simp only [Char.isDigit, Bool.and_eq_true, decide_eq_true_eq] at hc
    exact Nat.le_trans (by decide) (UInt32.le_iff_toNat_le.1 hc.1)
  cases n with
  | ofNat m => exact hdigit m h
  | negSucc m =>
    rcases List.mem_cons.1 h with rfl | h
    · decide
    · exact hdigit (m + 1) h

/-! ## Top theorems (proved from the lemmas above) -/

theorem parse?_compact {j : Json} (h : IsReadable maxDepth j) {s : List Char}
    (hs : ∀ c ∈ s, isSpace c = true) : parse? (String.ofList (j.compact ++ s)) = some j :=
  parse?_write .onOneLine h 0 hs

theorem parse?_pretty {j : Json} (h : IsReadable maxDepth j) {s : List Char}
    (hs : ∀ c ∈ s, isSpace c = true) : parse? (String.ofList (j.pretty ++ s)) = some j :=
  parse?_write .overLines h 0 hs

/-- **A value on one line breaks no line**: there is no control character in it. -/
theorem le_of_mem_compact {depth : Nat} {j : Json} (h : IsReadable depth j) {c : Char}
    (hc : c ∈ j.compact) : 0x20 ≤ c.toNat := by
  have hword : ∀ {word : List Char} {d : Char}, word.all (fun d => 0x20 ≤ d.toNat) = true →
      d ∈ word → 0x20 ≤ d.toNat := fun hall hmem =>
    of_decide_eq_true (List.all_eq_true.1 hall _ hmem)
  induction h generalizing c with
  | null => exact hword (by decide) hc
  | bool _ b =>
    cases b with
    | true => exact hword (by decide) hc
    | false => exact hword (by decide) hc
  | int => exact le_of_mem_decimalInt hc
  | str => exact le_of_mem_quote hc
  | arr _ ih =>
    rw [compact, compactItems_eq] at hc
    simp only [List.mem_cons, List.mem_append, List.not_mem_nil, or_false] at hc
    rcases hc with rfl | hc | rfl
    · decide
    · rcases mem_joined hc with rfl | ⟨part, hpart, hc⟩
      · decide
      · obtain ⟨j, hj, rfl⟩ := List.mem_map.1 hpart
        exact ih j hj hc
    · decide
  | obj _ _ ih =>
    rw [compact, compactMembers_eq] at hc
    simp only [List.mem_cons, List.mem_append, List.not_mem_nil, or_false] at hc
    rcases hc with rfl | hc | rfl
    · decide
    · rcases mem_joined hc with rfl | ⟨part, hpart, hc⟩
      · decide
      · obtain ⟨m, hm, rfl⟩ := List.mem_map.1 hpart
        rw [List.mem_append, List.mem_cons] at hc
        rcases hc with hc | rfl | hc
        · exact le_of_mem_quote hc
        · decide
        · exact ih m hm hc
    · decide

end RoutineParams.Json
