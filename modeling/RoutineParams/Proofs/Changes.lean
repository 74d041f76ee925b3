import RoutineParams.Proofs.LastOnes

/-!
# What a store holds after changes

Changes of a store add up to two tables with keys. Of the routines that were stored for a name, the
last one with each number is there, and of the parameters that were stored for a name, only those
that were stored last, and of them the last one with each number and name. What was stored for one
name has no say in what is there for another.

    modulesOf name of the store after cs             the last ones of storedRoutines name cs
                                                                         (latest_modulesOf_after)
    parametersOf name of the store after cs          the table of lastParameters name cs
                                                                      (isTableOf_parametersOf_after)
-/

namespace RoutineParams

/-! ## What changes store -/

namespace StoreChange

/-- The name of the database that a change is about. -/
def databaseName : StoreChange → String
  | routines name _ => name
  | parameters _ name _ => name

/-- The routines that a change stores. -/
def storedRoutines : StoreChange → List Routine
  | routines _ rs => rs
  | parameters _ _ _ => []

/-- The parameters that a change stores in place of all others, and when. -/
def storedParameters? : StoreChange → Option (Int64 × List Parameter)
  | routines _ _ => none
  | parameters now _ ps => some (now, ps)

end StoreChange

/-- The routines that changes store for a name, one after the other. -/
def storedRoutines (name : String) (cs : List StoreChange) : List Routine :=
  (cs.filter (·.databaseName = name)).flatMap StoreChange.storedRoutines

/-- The parameters that changes store last for a name, and when. Before that there are none. -/
def lastParameters (name : String) (cs : List StoreChange) : Int64 × List Parameter :=
  ((cs.filter (·.databaseName = name)).filterMap StoreChange.storedParameters?).getLast?.getD
    (0, [])

theorem storedRoutines_append (name : String) (cs ds : List StoreChange) :
    storedRoutines name (cs ++ ds) = storedRoutines name cs ++ storedRoutines name ds := by
  rw [storedRoutines, List.filter_append, List.flatMap_append]
  rfl

theorem storedRoutines_singleton (name : String) (c : StoreChange) :
    storedRoutines name [c] = if c.databaseName = name then c.storedRoutines else [] := by
  rw [storedRoutines, List.filter_singleton]
  split <;> simp_all

namespace Store

/-- What changes leave of a store that holds nothing. -/
def after (cs : List StoreChange) : Store := cs.foldl apply empty

/-- All routines of the database `name`, in the order of their numbers. -/
def modulesOf (s : Store) (name : String) : List Routine :=
  (s.routines.filter fun row => row.1.database == name).map routineOf

/-! ## Lemmas: routines -/

theorem routinesOf_eq (s : Store) (name : String) :
    s.routinesOf name = (s.modulesOf name).filter Routine.hasAtSign := by
  rw [routinesOf, modulesOf, List.filter_map, List.filter_filter]
  congr 1
  exact List.filter_congr fun row _ => Bool.and_comm _ _

theorem mem_modulesOf {s : Store} {name : String} {r : Routine} :
    r ∈ s.modulesOf name ↔ routineRow name r ∈ s.routines := by
  rw [modulesOf, List.mem_map]
  constructor
  · rintro ⟨row, hrow, rfl⟩
    obtain ⟨hmem, hname⟩ := List.mem_filter.1 hrow
    obtain rfl := beq_iff_eq.1 hname
    exact hmem
  · intro h
    exact ⟨_, List.mem_filter.2 ⟨h, beq_self_eq_true _⟩, rfl⟩

/-- Where the keys of a table ascend, so do the numbers of the routines of one name. -/
theorem pairwise_modulesOf {s : Store} (h : s.routines.Ascends RoutineKey.cmp) (name : String) :
    (s.modulesOf name).Pairwise (·.objectId < ·.objectId) := by
  refine List.pairwise_map.2 ((List.Pairwise.filter _ h).imp_of_mem fun hx hy hlt => ?_)
  have hx := beq_iff_eq.1 (List.mem_filter.1 hx).2
  have hy := beq_iff_eq.1 (List.mem_filter.1 hy).2
  exact RoutineKey.objectId_lt_of_cmp (hx.trans hy.symm) hlt

/-- The rows of routines that a change puts. -/
def routineRows : StoreChange → List (RoutineKey × RoutineRow)
  | .routines name rs => rs.map (routineRow name)
  | .parameters _ _ _ => []

theorem routines_foldl_apply (s : Store) (cs : List StoreChange) :
    (cs.foldl apply s).routines =
      s.routines.putAll RoutineKey.cmp (cs.flatMap routineRows) := by
  induction cs generalizing s with
  | nil => rfl
  | cons c cs ih =>
    rw [List.foldl_cons, ih, List.flatMap_cons, SortedTable.putAll, SortedTable.putAll,
      List.foldl_append]
    cases c <;> rfl

theorem ascends_routines_after (cs : List StoreChange) :
    (after cs).routines.Ascends RoutineKey.cmp := by
  rw [after, routines_foldl_apply]
  exact SortedTable.Ascends.putAll .nil _

/-- The rows of one change under the key of a routine. -/
theorem filter_routineRows (name : String) (id : ObjectId) (c : StoreChange) :
    (routineRows c).filter (·.1 = ⟨name, id⟩) =
      ((storedRoutines name [c]).filter (·.objectId = id)).map (routineRow name) := by
  cases c with
  | parameters now other ps =>
    rw [storedRoutines_singleton]
    split <;> rfl
  | routines other rs =>
    have hstored : storedRoutines name [.routines other rs] = if other = name then rs else [] :=
      storedRoutines_singleton name (.routines other rs)
    rw [hstored, routineRows, List.filter_map]
    by_cases hname : other = name
    · subst hname
      rw [if_pos rfl]
      congr 1
      exact List.filter_congr fun r _ => by simp [routineRow]
    · rw [if_neg hname, List.filter_eq_nil_iff.2 fun r _ => by simp [routineRow, hname]]
      rfl

/-- What is put under the key of a routine is what is stored for its name with its number. -/
theorem filter_flatMap_routineRows (name : String) (id : ObjectId) (cs : List StoreChange) :
    (cs.flatMap routineRows).filter (·.1 = ⟨name, id⟩) =
      ((storedRoutines name cs).filter (·.objectId = id)).map (routineRow name) := by
  induction cs with
  | nil => rfl
  | cons c cs ih =>
    rw [List.flatMap_cons, List.filter_append, filter_routineRows, ih, ← List.map_append,
      ← List.filter_append, ← storedRoutines_append, List.singleton_append]

/-- **The routines of a name after changes**: under each number the one that was stored last. -/
theorem latest_modulesOf_after (cs : List StoreChange) (name : String) :
    Latest ((after cs).modulesOf name) (storedRoutines name cs) := by
  refine ⟨pairwise_modulesOf (ascends_routines_after cs) name, fun r => ?_⟩
  have hinj : Function.Injective (routineRow name) := fun p q h => congrArg routineOf h
  rw [mem_modulesOf, after, routines_foldl_apply]
  show routineRow name r ∈ SortedTable.putAll RoutineKey.cmp (cs.flatMap routineRows) [] ↔ _
  rw [SortedTable.mem_putAll_nil]
  show ((cs.flatMap routineRows).filter (·.1 = ⟨name, r.objectId⟩)).getLast? = _ ↔ _
  rw [filter_flatMap_routineRows, List.getLast?_map, ← Option.map_some, (Option.map_injective hinj).eq_iff]
  rfl

/-- What is stored for one name leaves the routines of all others. -/
theorem modulesOf_apply_of_ne (s : Store) {c : StoreChange} {name : String}
    (h : c.databaseName ≠ name) : (s.apply c).modulesOf name = s.modulesOf name := by
  cases c with
  | parameters now other ps => rfl
  | routines other rs =>
    have hrows : ∀ row ∈ rs.map (routineRow other), (row.1.database == name) = false := by
      intro row hrow
      obtain ⟨r, -, rfl⟩ := List.mem_map.1 hrow
      exact beq_eq_false_iff_ne.2 h
    show List.map routineOf (List.filter _ (SortedTable.putAll _ _ _)) = _
    refine congrArg (List.map routineOf) ?_
    exact SortedTable.filter_putAll_of_not (p := fun k : RoutineKey => k.database == name) hrows _

/-! ## Lemmas: parameters -/

/-- A row tells what it was made of. -/
theorem parameterRow_injective (now : Int64) (name : String) :
    Function.Injective (parameterRow now name) := by
  rintro ⟨id, n, dflt⟩ ⟨id', n', dflt'⟩ h
  cases h
  rfl

/-- What is put under the key of a parameter is what is stored with its number and name. -/
theorem filter_map_parameterRow (now : Int64) (name : String) (ps : List Parameter)
    (p : Parameter) :
    (ps.map (parameterRow now name)).filter (·.1 = (parameterRow now name p).1) =
      (ps.filter fun q => q.objectId = p.objectId ∧ q.name = p.name).map
        (parameterRow now name) := by
  rw [List.filter_map]
  congr 1
  exact List.filter_congr fun q _ => by simp [parameterRow]

/-- What is in the table of some parameters: the rows of the last ones. -/
theorem mem_putAll_parameterRow {now : Int64} {name : String} {ps : List Parameter}
    {row : ParameterKey × ParameterRow} :
    row ∈ SortedTable.putAll ParameterKey.cmp (ps.map (parameterRow now name)) [] ↔
      ∃ p : Parameter, p.IsLastOf ps ∧ row = parameterRow now name p := by
  have hlast : ∀ p : Parameter,
      ((ps.map (parameterRow now name)).filter (·.1 = (parameterRow now name p).1)).getLast? =
        some (parameterRow now name p) ↔ p.IsLastOf ps := by
    intro p
    rw [filter_map_parameterRow, List.getLast?_map, ← Option.map_some,
      (Option.map_injective (parameterRow_injective now name)).eq_iff]
    rfl
  rw [SortedTable.mem_putAll_nil]
  constructor
  · intro h
    obtain ⟨p, -, rfl⟩ := List.mem_map.1 (List.mem_filter.1 (List.mem_of_getLast? h)).1
    exact ⟨p, (hlast p).1 h, rfl⟩
  · rintro ⟨p, hp, rfl⟩
    exact (hlast p).2 hp

/-- **The table of some parameters**: under each number and name the last one. -/
theorem isTableOf_putAll (name : String) (now : Int64) (ps : List Parameter) :
    IsTableOf ((SortedTable.putAll ParameterKey.cmp (ps.map (parameterRow now name)) []).map
      parameterOf) name now ps := by
  have hascends : SortedTable.Ascends ParameterKey.cmp
      (SortedTable.putAll ParameterKey.cmp (ps.map (parameterRow now name)) []) :=
    SortedTable.Ascends.putAll .nil _
  refine ⟨List.pairwise_map.2 (hascends.imp_of_mem fun hx hy hlt => ?_), fun row => ?_⟩
  · obtain ⟨p, -, rfl⟩ := mem_putAll_parameterRow.1 hx
    obtain ⟨q, -, rfl⟩ := mem_putAll_parameterRow.1 hy
    exact ParameterKey.lt_of_cmp rfl hlt
  · rw [List.mem_map]
    constructor
    · rintro ⟨x, hx, rfl⟩
      obtain ⟨p, hp, rfl⟩ := mem_putAll_parameterRow.1 hx
      exact ⟨p, hp, rfl⟩
    · rintro ⟨p, hp, rfl⟩
      exact ⟨_, mem_putAll_parameterRow.2 ⟨p, hp, rfl⟩, rfl⟩

/-- What is stored for one name leaves the parameters of all others. -/
theorem parametersOf_apply_of_ne (s : Store) {c : StoreChange} {name : String}
    (h : c.databaseName ≠ name) : (s.apply c).parametersOf name = s.parametersOf name := by
  cases c with
  | routines other rs => rfl
  | parameters now other ps =>
    have hother : other ≠ name := h
    have hrows : ∀ row ∈ ps.map (parameterRow now other), (row.1.database == name) = false := by
      intro row hrow
      obtain ⟨p, -, rfl⟩ := List.mem_map.1 hrow
      exact beq_eq_false_iff_ne.2 hother
    have hothers : ((s.parameters.filter fun row => row.1.database != other).filter
        fun row => row.1.database == name) =
        s.parameters.filter fun row => row.1.database == name := by
      rw [List.filter_filter]
      refine List.filter_congr fun row _ => ?_
      by_cases hrow : row.1.database = name
      · simp [hrow, Ne.symm hother]
      · simp [hrow]
    show List.map parameterOf (List.filter _ (SortedTable.putAll _ _ _)) = _
    refine congrArg (List.map parameterOf) (Eq.trans ?_ hothers)
    exact SortedTable.filter_putAll_of_not (p := fun k : ParameterKey => k.database == name) hrows _

theorem lastParameters_concat (name : String) (cs : List StoreChange) (c : StoreChange) :
    lastParameters name (cs ++ [c]) =
      if c.databaseName = name then c.storedParameters?.getD (lastParameters name cs)
      else lastParameters name cs := by
  rw [lastParameters, List.filter_append, List.filter_singleton]
  by_cases hname : c.databaseName = name
  · rw [decide_eq_true hname, cond_true, if_pos hname, List.filterMap_append]
    cases c with
    | routines other rs => simp [StoreChange.storedParameters?, lastParameters]
    | parameters now other ps => simp [StoreChange.storedParameters?]
  · rw [decide_eq_false hname, cond_false, if_neg hname, List.append_nil]
    rfl

/-- **The parameters of a name after changes**: the table of those that were stored last. -/
theorem isTableOf_parametersOf_after (cs : List StoreChange) (name : String) :
    IsTableOf ((after cs).parametersOf name) name (lastParameters name cs).1
      (lastParameters name cs).2 := by
  induction cs using List.reverseRecOn with
  | nil => exact isTableOf_putAll name 0 []
  | append_singleton cs c ih =>
    have hafter : after (cs ++ [c]) = (after cs).apply c := List.foldl_concat ..
    rw [hafter, lastParameters_concat]
    by_cases hname : c.databaseName = name
    · rw [if_pos hname]
      cases c with
      | routines other rs => exact ih
      | parameters now other ps =>
        obtain rfl : other = name := hname
        show IsTableOf (((after cs).storeParameters now other ps).parametersOf other) _ _ _
        rw [parametersOf_storeParameters]
        exact isTableOf_putAll other now ps
    · rw [if_neg hname, parametersOf_apply_of_ne _ hname]
      exact ih

end Store

end RoutineParams
