import RoutineParams.Proofs.ByteOrder
import RoutineParams.Proofs.Regrouping

/-!
# The last ones

Of routines, those that are the last ones with their numbers, in the order of these; and of
parameters, those that are the last ones with their numbers and names. Both are told by what they are
the last ones of.

    Latest found rs → Latest found' rs → found = found'                               (Latest.unique)
    r.IsLastOf (qs ++ rs) ↔ r.IsLastOf rs, or it is of qs, and none of rs has its number
                                                                             (Routine.isLastOf_append)
-/

namespace RoutineParams

/-! ## Definitions -/

/-- A routine is the last one of some with its number. -/
def Routine.IsLastOf (r : Routine) (rs : List Routine) : Prop :=
  (rs.filter (·.objectId = r.objectId)).getLast? = some r

instance (r : Routine) (rs : List Routine) : Decidable (r.IsLastOf rs) :=
  inferInstanceAs (Decidable (_ = _))

/-- A parameter is the last one of some with its number and name. -/
def Parameter.IsLastOf (p : Parameter) (ps : List Parameter) : Prop :=
  (ps.filter fun q => q.objectId = p.objectId ∧ q.name = p.name).getLast? = some p

/-- The routines `found` are the last ones of `rs` with each number, in the order of these. -/
structure Latest (found rs : List Routine) : Prop where
  ascends : found.Pairwise (·.objectId < ·.objectId)
  mem_iff : ∀ r, r ∈ found ↔ r.IsLastOf rs

/-- The stored parameters `rows` are the last ones of `ps` with each number and name, in the order
of these, stored for the database `name` at the time `now`. -/
structure IsTableOf (rows : List StoredParameter) (name : String) (now : Int64)
    (ps : List Parameter) : Prop where
  ascends : rows.Pairwise fun p q => p.objectId < q.objectId ∨
    p.objectId = q.objectId ∧ bytesOf p.name < bytesOf q.name
  mem_iff : ∀ row, row ∈ rows ↔ ∃ p : Parameter, p.IsLastOf ps ∧
    row = ⟨name, p.objectId, p.name, p.default, now⟩

/-! ## Lemmas -/

/-- The last one of more routines with its number is among those that came later, or none of these
has its number. -/
theorem Routine.isLastOf_append {r : Routine} {qs rs : List Routine} :
    r.IsLastOf (qs ++ rs) ↔
      r.IsLastOf rs ∨ (∀ q ∈ rs, q.objectId ≠ r.objectId) ∧ r.IsLastOf qs := by
  have hnone : (rs.filter (·.objectId = r.objectId)).getLast? = none ↔
      ∀ q ∈ rs, q.objectId ≠ r.objectId := by
    rw [List.getLast?_eq_none_iff, List.filter_eq_nil_iff]
    exact forall₂_congr fun q _ => not_congr decide_eq_true_iff
  rw [IsLastOf, IsLastOf, IsLastOf, List.filter_append, List.getLast?_append, ← hnone]
  cases (rs.filter (·.objectId = r.objectId)).getLast? <;> simp

/-- Of routines with different numbers each is the last one with its number. -/
theorem Routine.isLastOf_of_nodup {r : Routine} {rs : List Routine}
    (hids : (rs.map (·.objectId)).Nodup) (h : r ∈ rs) : r.IsLastOf rs := by
  induction rs with
  | nil => cases h
  | cons q rs ih =>
    obtain ⟨hnot, hids⟩ := List.nodup_cons.1 hids
    refine (isLastOf_append : r.IsLastOf ([q] ++ rs) ↔ _).2 ?_
    rcases List.mem_cons.1 h with rfl | h
    · refine Or.inr ⟨fun p hp heq => hnot (List.mem_map.2 ⟨p, hp, heq⟩), ?_⟩
      simp [IsLastOf]
    · exact Or.inl (ih hids h)

/-- The last ones with each number are told by what they are the last ones of. -/
theorem Latest.unique {found found' rs : List Routine} (h : Latest found rs)
    (h' : Latest found' rs) : found = found' := by
  have hnodup : ∀ {rs : List Routine}, rs.Pairwise (·.objectId < ·.objectId) → rs.Nodup :=
    fun hrs => hrs.imp fun {q r} hlt heq => absurd hlt (by simp [heq])
  have hperm := (List.perm_ext_iff_of_nodup (hnodup h.ascends) (hnodup h'.ascends)).2 fun r =>
    (h.mem_iff r).trans (h'.mem_iff r).symm
  exact hperm.eq_of_pairwise (fun q r _ _ hqr hrq => absurd hqr (Int64.lt_asymm hrq)) h.ascends
    h'.ascends

/-- There are no last ones only of nothing. -/
theorem Latest.eq_nil_iff {found rs : List Routine} (h : Latest found rs) :
    found = [] ↔ rs = [] := by
  rw [List.eq_nil_iff_forall_not_mem]
  constructor
  · intro hnone
    rcases List.eq_nil_or_concat rs with hrs | ⟨qs, r, hrs⟩
    · exact hrs
    · exact absurd ((h.mem_iff r).2 (by simp [Routine.IsLastOf, hrs])) (hnone r)
  · rintro rfl r hr
    cases (h.mem_iff r).1 hr

/-- A table is empty only if nothing was stored. -/
theorem IsTableOf.eq_nil_iff {rows : List StoredParameter} {name : String} {now : Int64}
    {ps : List Parameter} (h : IsTableOf rows name now ps) : rows = [] ↔ ps = [] := by
  rw [List.eq_nil_iff_forall_not_mem]
  constructor
  · intro hnone
    rcases List.eq_nil_or_concat ps with hps | ⟨qs, p, hps⟩
    · exact hps
    · exact absurd ((h.mem_iff _).2 ⟨p, by simp [Parameter.IsLastOf, hps], rfl⟩) (hnone _)
  · rintro rfl row hrow
    obtain ⟨p, hp, -⟩ := (h.mem_iff row).1 hrow
    cases hp

/-- Under the same database parameters are in the order of their numbers, and then of the bytes of
their names. -/
theorem ParameterKey.lt_of_cmp {k l : ParameterKey} (hdb : k.database = l.database)
    (h : ParameterKey.cmp k l = .lt) :
    k.objectId < l.objectId ∨ k.objectId = l.objectId ∧ bytesOf k.name < bytesOf l.name := by
  have hself : compare k.database l.database = .eq := by
    rw [hdb]
    exact Std.ReflCmp.compare_self
  have hthen : (compare k.database l.database).then
      ((compare k.objectId l.objectId).then (compare k.name l.name)) = .lt := h
  rw [hself] at hthen
  rcases Ordering.then_eq_lt.1 hthen with hid | ⟨hid, hname⟩
  · cases hid
  rcases Ordering.then_eq_lt.1 hname with hid | ⟨hid, hname⟩
  · exact Or.inl (Std.compare_eq_lt.1 hid)
  · exact Or.inr ⟨Std.LawfulEqCmp.eq_of_compare hid,
      lt_iff_bytesOf_lt.1 (compareOfLessAndEq_eq_lt.1 hname)⟩

end RoutineParams
