import RoutineParams.Proofs.Occurrences
import RoutineParams.Proofs.Reports
import RoutineParams.Proofs.Tables
import RoutineParams.Store

/-!
# Routines and parameters in a store

A store gives the routines of a database back in the order of their numbers, and without those
whose text has no sign `@`; these have no parameters. So the parameters of what it gives back are
those of what was stored, routine by routine; and stored once more they make the same table, since
within one routine they come in the order they had.

    the parameters of (s.storeRoutines name rs).routinesOf name regroup those of rs
                                                                    (regroups_routinesOf)
    Regroups ps qs → parameters stored as ps are those stored as qs (untimed_parametersOf_congr)
-/

namespace RoutineParams

/-! ## Parameters of many routines -/

/-- Whether a routine may have parameters. -/
def Routine.hasAtSign (r : Routine) : Bool := r.definition.toList.contains '@'

/-- The parameters `ps` are the parameters `qs` in ascending order of the numbers of their routines,
with those of one routine in the order they have. -/
def Regroups (ps qs : List Parameter) : Prop :=
  ps.Pairwise (·.objectId ≤ ·.objectId) ∧
    ∀ id, ps.filter (·.objectId = id) = qs.filter (·.objectId = id)

/-- A stored parameter without the time when it was stored. -/
def StoredParameter.untimed (p : StoredParameter) : String × Parameter :=
  (p.databaseName, ⟨p.objectId, p.name, p.default⟩)

/-! ## Lemmas: parameters of routines -/

theorem objectId_of_mem_parameters {r : Routine} {p : Parameter} (h : p ∈ r.parameters) :
    p.objectId = r.objectId := by
  obtain ⟨places, hplaces, -, -⟩ := exists_places_of_extract r.objectId r.definition
  rw [Routine.parameters, hplaces] at h
  obtain ⟨place, -, rfl⟩ := List.mem_map.1 h
  rfl

/-- Routines without the sign `@` in their texts make no difference. -/
theorem flatMap_parameters_filter (rs : List Routine) :
    (rs.filter Routine.hasAtSign).flatMap Routine.parameters =
      rs.flatMap Routine.parameters := by
  induction rs with
  | nil => rfl
  | cons r rs ih =>
    rw [List.filter_cons, List.flatMap_cons, ← ih]
    cases hat : r.hasAtSign with
    | true => rfl
    | false =>
      have hmem : '@' ∉ r.definition.toList := by simpa [Routine.hasAtSign] using hat
      have hnone : r.parameters = [] := parameters_extract_of_not_mem r.objectId hmem
      rw [hnone]
      rfl

/-- The parameters with a number are those of the routines with that number. -/
theorem filter_flatMap_parameters (rs : List Routine) (id : ObjectId) :
    (rs.flatMap Routine.parameters).filter (·.objectId = id) =
      (rs.filter (·.objectId = id)).flatMap Routine.parameters := by
  induction rs with
  | nil => rfl
  | cons r rs ih =>
    rw [List.flatMap_cons, List.filter_append, ih, List.filter_cons]
    by_cases hid : r.objectId = id
    · have hall : r.parameters.filter (·.objectId = id) = r.parameters :=
        List.filter_eq_self.2 fun p hp => by simp [objectId_of_mem_parameters hp, hid]
      rw [hall, if_pos (by simpa using hid)]
      rfl
    · have hnone : r.parameters.filter (·.objectId = id) = [] :=
        List.filter_eq_nil_iff.2 fun p hp => by simp [objectId_of_mem_parameters hp, hid]
      rw [hnone, if_neg (by simpa using hid)]
      rfl

/-- Of routines with different numbers at most one has a given one. -/
theorem filter_objectId_congr {rs rs' : List Routine} (hids : (rs.map (·.objectId)).Nodup)
    (h : rs'.Perm rs) (id : ObjectId) :
    rs'.filter (·.objectId = id) = rs.filter (·.objectId = id) := by
  have hperm := h.filter fun r => decide (r.objectId = id)
  have hfiltered : (rs.filter (·.objectId = id)).Pairwise (·.objectId ≠ ·.objectId) :=
    (List.pairwise_map.1 hids).filter _
  have hall : ∀ r ∈ rs.filter (·.objectId = id), r.objectId = id := fun r hr => by
    simpa using (List.mem_filter.1 hr).2
  generalize rs.filter (·.objectId = id) = found at hperm hfiltered hall ⊢
  match found with
  | [] => exact hperm.eq_nil
  | [r] => exact List.perm_singleton.1 hperm
  | r :: q :: _ =>
    have hne := (List.pairwise_cons.1 hfiltered).1 q List.mem_cons_self
    exact absurd ((hall r (by simp)).trans (hall q (by simp)).symm) hne

/-- Routines with signs `@`, in the order of their numbers, have the parameters of all routines,
regrouped. -/
theorem regroups_of_perm {rs rs' : List Routine} (hids : (rs.map (·.objectId)).Nodup)
    (hperm : rs'.Perm (rs.filter Routine.hasAtSign))
    (hsorted : rs'.Pairwise (·.objectId < ·.objectId)) :
    Regroups (rs'.flatMap Routine.parameters) (rs.flatMap Routine.parameters) := by
  refine ⟨List.pairwise_flatMap.2 ⟨fun r _ => ?_, ?_⟩, fun id => ?_⟩
  · refine List.pairwise_of_forall_mem_list fun p hp q hq => ?_
    rw [objectId_of_mem_parameters hp, objectId_of_mem_parameters hq]
    exact Std.le_refl _
  · refine hsorted.imp fun {r q} hlt p hp p' hp' => ?_
    rw [objectId_of_mem_parameters hp, objectId_of_mem_parameters hp']
    exact Std.le_of_lt hlt
  · have hids' : ((rs.filter Routine.hasAtSign).map (·.objectId)).Nodup :=
      hids.sublist (List.filter_sublist.map _)
    rw [← flatMap_parameters_filter rs, filter_flatMap_parameters, filter_flatMap_parameters,
      filter_objectId_congr hids' hperm]

theorem Regroups.eq_nil {ps : List Parameter} (h : Regroups [] ps) : ps = [] := by
  refine List.eq_nil_iff_forall_not_mem.2 fun p hp => ?_
  have hmem : p ∈ ps.filter (·.objectId = p.objectId) := List.mem_filter.2 ⟨hp, by simp⟩
  rw [← h.2] at hmem
  cases hmem

/-! ## Lemmas: rows of a database -/

/-- Keys of different databases are in the order of these. -/
theorem compareLex_of_ne {κ : Type} {db : κ → String} {rest : κ → κ → Ordering} {k l : κ}
    (h : db k ≠ db l) : compareLex (compareOn db) rest k l = compare (db k) (db l) := by
  show (compare (db k) (db l)).then _ = _
  cases hcmp : compare (db k) (db l) with
  | eq => exact absurd (Std.LawfulEqCmp.eq_of_compare hcmp) h
  | lt | gt => rfl

theorem RoutineKey.cmp_of_ne {k l : RoutineKey} (h : k.database ≠ l.database) :
    RoutineKey.cmp k l = compare k.database l.database := compareLex_of_ne h

theorem ParameterKey.cmp_of_ne {k l : ParameterKey} (h : k.database ≠ l.database) :
    ParameterKey.cmp k l = compare k.database l.database := compareLex_of_ne h

instance : Std.TransCmp RoutineKey.cmp := inferInstanceAs (Std.TransCmp (compareLex _ _))

instance : Std.TransCmp ParameterKey.cmp := inferInstanceAs (Std.TransCmp (compareLex _ _))

instance : Std.LawfulEqCmp RoutineKey.cmp where
  eq_of_compare {k l} h := by
    obtain ⟨hdb, hid⟩ := compareLex_eq_eq.1 h
    obtain ⟨db, id⟩ := k
    obtain rfl : db = l.database := Std.LawfulEqCmp.eq_of_compare hdb
    obtain rfl : id = l.objectId := Std.LawfulEqCmp.eq_of_compare hid
    rfl

instance : Std.LawfulEqCmp ParameterKey.cmp where
  eq_of_compare {k l} h := by
    obtain ⟨hdb, h⟩ := compareLex_eq_eq.1 h
    obtain ⟨hid, hname⟩ := compareLex_eq_eq.1 h
    obtain ⟨db, id, name⟩ := k
    obtain rfl : db = l.database := Std.LawfulEqCmp.eq_of_compare hdb
    obtain rfl : id = l.objectId := Std.LawfulEqCmp.eq_of_compare hid
    obtain rfl : name = l.name := Std.LawfulEqCmp.eq_of_compare hname
    rfl

/-- Under the same database routines are in the order of their numbers. -/
theorem RoutineKey.objectId_lt_of_cmp {k l : RoutineKey} (hdb : k.database = l.database)
    (h : RoutineKey.cmp k l = .lt) : k.objectId < l.objectId := by
  have hself : compare k.database l.database = .eq := by
    rw [hdb]
    exact Std.ReflCmp.compare_self
  have hthen : (compare k.database l.database).then (compare k.objectId l.objectId) = .lt := h
  rw [hself] at hthen
  exact Std.compare_eq_lt.1 hthen

/-- Where a table has no rows of a database, its rows of that database are those that are put. -/
theorem filter_putAll {κ α : Type} [DecidableEq κ] {cmp : κ → κ → Ordering} [Std.TransCmp cmp]
    [Std.LawfulEqCmp cmp] (db : κ → String)
    (hcmp : ∀ {k l}, db k ≠ db l → cmp k l = compare (db k) (db l)) {rows : List (κ × α)}
    {t : SortedTable κ α} {name : String} (hrows : ∀ row ∈ rows, db row.1 = name)
    (ht : ∀ x ∈ t, db x.1 ≠ name) :
    (SortedTable.putAll cmp rows t).filter (fun x => db x.1 == name) =
      SortedTable.putAll cmp rows [] := by
  have hcompare : ∀ row ∈ rows, ∀ x ∈ t, cmp row.1 x.1 = compare name (db x.1) := by
    intro row hrow x hx
    rw [hcmp (by rw [hrows row hrow]; exact (ht x hx).symm), hrows row hrow]
  -- the rows of the database lie between those of lesser and of greater names
  let isLess (x : κ × α) : Bool := compare name (db x.1) = .gt
  have hsplit : t.takeWhile isLess ++ [] ++ t.dropWhile isLess = t := by simp
  have hsome : SortedTable.putAll cmp rows t =
      t.takeWhile isLess ++ SortedTable.putAll cmp rows [] ++ t.dropWhile isLess := by
    conv => lhs; rw [← hsplit]
    refine SortedTable.putAll_append (fun row hrow x hx => ?_) (fun row hrow x hx => ?_) []
    · rw [hcompare row hrow x ((List.takeWhile_prefix _).subset hx)]
      simpa [isLess] using List.all_eq_true.1 (List.all_takeWhile) x hx
    · have hxt : x ∈ t := (List.dropWhile_sublist _).subset (List.mem_of_mem_head? hx)
      rw [hcompare row hrow x hxt]
      have hnot : isLess x = false := by
        have := List.head?_dropWhile_not isLess t
        rw [Option.mem_def.1 hx] at this
        simpa using this
      cases hc : compare name (db x.1) with
      | lt => rfl
      | eq => exact absurd (Std.LawfulEqCmp.eq_of_compare hc).symm (ht x hxt)
      | gt => simp [isLess, hc] at hnot
  have hnone : ∀ u : List (κ × α), u.Sublist t → u.filter (fun x => db x.1 == name) = [] :=
    fun u hu => List.filter_eq_nil_iff.2 fun x hx => by simpa using ht x (hu.subset hx)
  have hall : (SortedTable.putAll cmp rows []).filter (fun x => db x.1 == name) =
      SortedTable.putAll cmp rows [] := by
    refine List.filter_eq_self.2 fun x hx => ?_
    have hlast := List.mem_of_getLast? ((SortedTable.mem_putAll_nil rows x).1 hx)
    simpa using hrows x (List.mem_filter.1 hlast).1
  rw [hsome, List.filter_append, List.filter_append, hall,
    hnone _ (List.takeWhile_prefix _).sublist, hnone _ (List.dropWhile_sublist _),
    List.nil_append, List.append_nil]

/-! ## Top theorems (proved from the lemmas above) -/

namespace Store

/-- The store holds nothing of a database. -/
def Lacks (s : Store) (name : String) : Prop :=
  (∀ row ∈ s.routines, row.1.database ≠ name) ∧ ∀ row ∈ s.parameters, row.1.database ≠ name

/-- **What is given back of stored routines**: those with a sign `@`, in the order of their
numbers. -/
theorem routinesOf_storeRoutines {s : Store} {name : String} {rs : List Routine}
    (h : s.Lacks name) (hids : (rs.map (·.objectId)).Nodup) :
    ((s.storeRoutines name rs).routinesOf name).Perm (rs.filter Routine.hasAtSign) ∧
      ((s.storeRoutines name rs).routinesOf name).Pairwise (·.objectId < ·.objectId) := by
  have hrows : ∀ row ∈ rs.map (routineRow name), row.1.database = name := by
    intro row hrow
    obtain ⟨r, -, rfl⟩ := List.mem_map.1 hrow
    rfl
  have htable : (s.storeRoutines name rs).routinesOf name =
      ((SortedTable.putAll RoutineKey.cmp (rs.map (routineRow name)) []).filter
        fun row => row.2.definition.toList.contains '@').map routineOf := by
    rw [← filter_putAll RoutineKey.database RoutineKey.cmp_of_ne hrows h.1, List.filter_filter]
    simp only [routinesOf, storeRoutines, Bool.and_comm]
  have hkeys : ((rs.map (routineRow name)).map (·.1)).Nodup := by
    refine List.pairwise_map.2 (List.pairwise_map.2 ((List.pairwise_map.1 hids).imp ?_))
    exact fun hne heq => hne (congrArg RoutineKey.objectId heq)
  have hperm : (SortedTable.putAll RoutineKey.cmp (rs.map (routineRow name)) []).Perm
      (rs.map (routineRow name)) := by
    conv => rhs; rw [← List.append_nil (rs.map (routineRow name))]
    exact SortedTable.perm_putAll hkeys (by simp)
  have hascends : SortedTable.Ascends RoutineKey.cmp
      (SortedTable.putAll RoutineKey.cmp (rs.map (routineRow name)) []) :=
    SortedTable.Ascends.putAll .nil _
  rw [htable]
  constructor
  · refine ((hperm.filter _).map routineOf).trans (List.Perm.of_eq ?_)
    rw [List.filter_map, List.map_map]
    exact List.map_id _
  · refine List.pairwise_map.2 ((hascends.filter _).imp_of_mem fun {x y} hx hy hlt => ?_)
    have hdb : x.1.database = y.1.database :=
      (hrows x (hperm.mem_iff.1 (List.mem_filter.1 hx).1)).trans
        (hrows y (hperm.mem_iff.1 (List.mem_filter.1 hy).1)).symm
    exact RoutineKey.objectId_lt_of_cmp hdb hlt

/-- The parameters of what is given back of stored routines are theirs, regrouped. -/
theorem regroups_routinesOf {s : Store} {name : String} {rs : List Routine} (h : s.Lacks name)
    (hids : (rs.map (·.objectId)).Nodup) :
    Regroups (((s.storeRoutines name rs).routinesOf name).flatMap Routine.parameters)
      (rs.flatMap Routine.parameters) := by
  obtain ⟨hperm, hsorted⟩ := routinesOf_storeRoutines h hids
  exact regroups_of_perm hids hperm hsorted

/-- The stored parameters of a database are those that were stored last. -/
theorem parametersOf_storeParameters (s : Store) (now : Int64) (name : String)
    (ps : List Parameter) :
    (s.storeParameters now name ps).parametersOf name =
      (SortedTable.putAll ParameterKey.cmp (ps.map (parameterRow now name)) []).map
        parameterOf := by
  have hrows : ∀ row ∈ ps.map (parameterRow now name), row.1.database = name := by
    intro row hrow
    obtain ⟨p, -, rfl⟩ := List.mem_map.1 hrow
    rfl
  rw [← filter_putAll ParameterKey.database ParameterKey.cmp_of_ne hrows
    (t := s.parameters.filter fun row => row.1.database != name)]
  · rfl
  · intro row hrow
    simpa using (List.mem_filter.1 hrow).2

/-- **Regrouped parameters make the same table**, whenever they are stored. -/
theorem untimed_parametersOf_congr {ps qs : List Parameter} (h : Regroups ps qs) (s t : Store)
    (now now' : Int64) (name : String) :
    ((s.storeParameters now name ps).parametersOf name).map StoredParameter.untimed =
      ((t.storeParameters now' name qs).parametersOf name).map StoredParameter.untimed := by
  let key (p : Parameter) : ParameterKey := ⟨name, p.objectId, p.name⟩
  let untimed (x : ParameterKey × String) : String × Parameter :=
    (x.1.database, ⟨x.1.objectId, x.1.name, x.2⟩)
  have huntimed : ∀ (s : Store) now ps,
      ((s.storeParameters now name ps).parametersOf name).map StoredParameter.untimed =
        (SortedTable.putAll ParameterKey.cmp (ps.map fun p => (key p, p.default)) []).map
          untimed := by
    intro s now ps
    have hmap := SortedTable.map_putAll ParameterKey.cmp ParameterRow.default
      (ps.map (parameterRow now name)) []
    have hmapped := congrArg (List.map untimed) hmap
    rw [List.map_map, List.map_map] at hmapped
    rw [parametersOf_storeParameters, List.map_map]
    exact hmapped
  -- what is put under one key is of one routine
  have hkeys : ∀ (ps : List Parameter) (k : ParameterKey),
      (ps.map fun p => (key p, p.default)).filter (·.1 = k) =
        ((ps.filter (·.objectId = k.objectId)).filter (key · = k)).map
          fun p => (key p, p.default) := by
    intro ps k
    rw [List.filter_map, List.filter_filter]
    congr 1
    refine List.filter_congr fun p _ => ?_
    by_cases hk : key p = k
    · simp [← hk, key]
    · simp [hk]
  rw [huntimed, huntimed, SortedTable.putAll_congr fun k => ?_]
  rw [hkeys ps, hkeys qs, h.2]

end Store

end RoutineParams
