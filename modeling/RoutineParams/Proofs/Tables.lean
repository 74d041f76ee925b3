import Mathlib.Data.List.Nodup
import Mathlib.Order.Defs.LinearOrder
import RoutineParams.SortedTable

/-!
# What sorted tables hold

A table whose keys ascend holds each key once, and what is put into it last under a key. Such a
table is told by what it holds, so the order in which values come does not matter beyond that.

    x ∈ putAll cmp rows [] ↔ x is the last of the rows with its key      (mem_putAll_nil)
    putAll cmp rows [] is a permutation of rows with different keys      (perm_putAll)
    putAll cmp rows (putAll cmp rows t) = putAll cmp rows t              (putAll_putAll)
    putAll cmp rows (a ++ t ++ b) = a ++ putAll cmp rows t ++ b          (putAll_append)
-/

namespace RoutineParams.SortedTable

variable {κ α β : Type} {cmp : κ → κ → Ordering}

/-- The keys of a table ascend. -/
def Ascends (cmp : κ → κ → Ordering) (t : SortedTable κ α) : Prop :=
  t.Pairwise fun x y => cmp x.1 y.1 = .lt

/-! ## Lemmas: one value -/

section
variable [Std.TransCmp cmp]

theorem ne_of_compare_lt {k l : κ} (h : cmp k l = .lt) : k ≠ l := by
  rintro rfl
  have hself : cmp k k = .eq := Std.ReflCmp.compare_self
  rw [h] at hself
  cases hself

theorem Ascends.nodup {t : SortedTable κ α} (h : Ascends cmp t) : t.Nodup :=
  List.Pairwise.imp (fun hlt heq => ne_of_compare_lt hlt (congrArg Prod.fst heq)) h

/-- A table is told by what it holds. -/
theorem Ascends.eq_of_mem_iff {t u : SortedTable κ α} (ht : Ascends cmp t) (hu : Ascends cmp u)
    (h : ∀ x, x ∈ t ↔ x ∈ u) : t = u := by
  have hperm := (List.perm_ext_iff_of_nodup ht.nodup hu.nodup).2 h
  refine hperm.eq_of_pairwise (fun x y _ _ hxy hyx => ?_) ht hu
  exact absurd rfl (ne_of_compare_lt (Std.TransCmp.lt_trans hxy hyx))

variable [Std.LawfulEqCmp cmp]

/-- What a table holds after a value was put. -/
theorem mem_put {t : SortedTable κ α} (h : Ascends cmp t) (k : κ) (a : α) (x : κ × α) :
    x ∈ put cmp k a t ↔ x = (k, a) ∨ x.1 ≠ k ∧ x ∈ t := by
  induction t with
  | nil => simp [put]
  | cons y t ih =>
    obtain ⟨l, b⟩ := y
    obtain ⟨hlt, ht⟩ := List.pairwise_cons.1 h
    rw [put]
    cases hcmp : cmp k l with
    | lt =>
      -- the key is less than all others
      have hk : ∀ z ∈ (l, b) :: t, z.1 ≠ k := by
        intro z hz
        rcases List.mem_cons.1 hz with rfl | hz
        · exact (ne_of_compare_lt hcmp).symm
        · exact (ne_of_compare_lt (Std.TransCmp.lt_trans hcmp (hlt z hz))).symm
      rw [List.mem_cons]
      exact or_congr_right ⟨fun hx => ⟨hk x hx, hx⟩, fun hx => hx.2⟩
    | eq =>
      obtain rfl := Std.LawfulEqCmp.eq_of_compare hcmp
      rw [List.mem_cons, List.mem_cons]
      refine or_congr_right
        ⟨fun hx => ⟨(ne_of_compare_lt (hlt x hx)).symm, Or.inr hx⟩, fun hx => ?_⟩
      rcases hx with ⟨hxk, rfl | hx⟩
      · exact absurd rfl hxk
      · exact hx
    | gt =>
      have hkl : l ≠ k := ne_of_compare_lt (Std.OrientedCmp.lt_of_gt hcmp)
      rw [List.mem_cons, List.mem_cons, ih ht]
      constructor
      · rintro (rfl | rfl | hx)
        · exact Or.inr ⟨hkl, Or.inl rfl⟩
        · exact Or.inl rfl
        · exact Or.inr ⟨hx.1, Or.inr hx.2⟩
      · rintro (rfl | ⟨hxk, rfl | hx⟩)
        · exact Or.inr (Or.inl rfl)
        · exact Or.inl rfl
        · exact Or.inr (Or.inr ⟨hxk, hx⟩)

theorem Ascends.put {t : SortedTable κ α} (h : Ascends cmp t) (k : κ) (a : α) :
    Ascends cmp (put cmp k a t) := by
  induction t with
  | nil => exact List.pairwise_singleton _ _
  | cons y t ih =>
    obtain ⟨l, b⟩ := y
    obtain ⟨hlt, ht⟩ := List.pairwise_cons.1 h
    rw [SortedTable.put]
    cases hcmp : cmp k l with
    | lt =>
      refine List.pairwise_cons.2 ⟨fun z hz => ?_, h⟩
      rcases List.mem_cons.1 hz with rfl | hz
      · exact hcmp
      · exact Std.TransCmp.lt_trans hcmp (hlt z hz)
    | eq =>
      obtain rfl := Std.LawfulEqCmp.eq_of_compare hcmp
      exact List.pairwise_cons.2 ⟨hlt, ht⟩
    | gt =>
      refine List.pairwise_cons.2 ⟨fun z hz => ?_, ih ht⟩
      rcases (mem_put ht k a z).1 hz with rfl | hz
      · exact Std.OrientedCmp.lt_of_gt hcmp
      · exact hlt z hz.2

omit [Std.TransCmp cmp] in
/-- A value under a new key is one more. -/
theorem perm_put {t : SortedTable κ α} {k : κ} (h : ∀ x ∈ t, x.1 ≠ k) (a : α) :
    (put cmp k a t).Perm ((k, a) :: t) := by
  induction t with
  | nil => rfl
  | cons y t ih =>
    obtain ⟨l, b⟩ := y
    rw [put]
    cases hcmp : cmp k l with
    | lt => rfl
    | eq => exact absurd (Std.LawfulEqCmp.eq_of_compare hcmp).symm (h _ List.mem_cons_self)
    | gt =>
      refine ((ih fun x hx => h x (List.mem_cons_of_mem _ hx)).cons _).trans ?_
      exact List.Perm.swap _ _ _

/-! ## Lemmas: values one after the other -/

theorem Ascends.putAll {t : SortedTable κ α} (h : Ascends cmp t) (rows : List (κ × α)) :
    Ascends cmp (putAll cmp rows t) := by
  induction rows generalizing t with
  | nil => exact h
  | cons row rows ih => exact ih (h.put row.1 row.2)

/-- What a table holds after values were put: under each key the last one. -/
theorem mem_putAll [DecidableEq κ] {t : SortedTable κ α} (h : Ascends cmp t)
    (rows : List (κ × α)) (x : κ × α) :
    x ∈ putAll cmp rows t ↔
      (rows.filter (·.1 = x.1)).getLast? = some x ∨ (∀ row ∈ rows, row.1 ≠ x.1) ∧ x ∈ t := by
  induction rows generalizing t with
  | nil => simp [putAll]
  | cons row rows ih =>
    have hput : SortedTable.putAll cmp (row :: rows) t =
      SortedTable.putAll cmp rows (SortedTable.put cmp row.1 row.2 t) := rfl
    rw [hput, ih (h.put row.1 row.2), mem_put h]
    by_cases hrow : row.1 = x.1
    · rw [List.filter_cons_of_pos (by simpa using hrow), List.getLast?_cons]
      by_cases hmore : ∀ r ∈ rows, r.1 ≠ x.1
      · -- no row after this one has the key
        have hnone : rows.filter (·.1 = x.1) = [] := List.filter_eq_nil_iff.2 (by simpa using hmore)
        simp only [hnone, List.getLast?_nil, Option.getD_none, Option.some.injEq, reduceCtorEq,
          false_or, List.mem_cons, forall_eq_or_imp, hrow, ne_eq, not_true, false_and, or_false]
        rw [← hrow]
        exact ⟨fun hx => hx.2.symm, fun hx => ⟨hrow ▸ hmore, hx.symm⟩⟩
      · have hsome : rows.filter (·.1 = x.1) ≠ [] := by
          simpa [List.filter_eq_nil_iff] using hmore
        obtain ⟨y, hy⟩ := Option.ne_none_iff_exists'.1
          (fun hnil => hsome (List.getLast?_eq_none_iff.1 hnil))
        simp only [hy, hmore, false_and, or_false, Option.getD_some, List.mem_cons,
          forall_eq_or_imp, hrow, ne_eq, not_true]
    · rw [List.filter_cons_of_neg (by simpa using hrow)]
      have hkey : x ≠ (row.1, row.2) := by rintro rfl; exact hrow rfl
      simp only [List.mem_cons, forall_eq_or_imp, ne_eq, hrow, not_false_eq_true, true_and, hkey,
        false_or, Ne.symm hrow]

/-- What a table holds that was made of values: under each key the last one. -/
theorem mem_putAll_nil [DecidableEq κ] (rows : List (κ × α)) (x : κ × α) :
    x ∈ putAll cmp rows [] ↔ (rows.filter (·.1 = x.1)).getLast? = some x := by
  rw [mem_putAll List.Pairwise.nil]
  simp

/-- Only the last value under each key counts. -/
theorem putAll_congr [DecidableEq κ] {rows rows' : List (κ × α)}
    (h : ∀ k, rows.filter (·.1 = k) = rows'.filter (·.1 = k)) :
    putAll cmp rows [] = putAll cmp rows' [] := by
  have hnil : Ascends cmp ([] : SortedTable κ α) := .nil
  refine (hnil.putAll rows).eq_of_mem_iff (hnil.putAll rows') fun x => ?_
  rw [mem_putAll_nil, mem_putAll_nil, h]

omit [Std.TransCmp cmp] in
/-- Values under different keys are all held. -/
theorem perm_putAll {t : SortedTable κ α} {rows : List (κ × α)}
    (hrows : (rows.map (·.1)).Nodup) (h : ∀ row ∈ rows, ∀ x ∈ t, x.1 ≠ row.1) :
    (putAll cmp rows t).Perm (rows ++ t) := by
  induction rows generalizing t with
  | nil => rfl
  | cons row rows ih =>
    rw [List.map_cons, List.nodup_cons] at hrows
    have hput : (put cmp row.1 row.2 t).Perm (row :: t) :=
      perm_put (h row List.mem_cons_self) row.2
    have hnext : ∀ r ∈ rows, ∀ x ∈ put cmp row.1 row.2 t, x.1 ≠ r.1 := by
      intro r hr x hx
      rcases List.mem_cons.1 (hput.mem_iff.1 hx) with rfl | hx
      · rintro hkey
        exact hrows.1 (hkey ▸ List.mem_map_of_mem hr)
      · exact h r (List.mem_cons_of_mem row hr) x hx
    refine (ih hrows.2 hnext).trans ?_
    exact (hput.append_left rows).trans List.perm_middle

/-! ## Lemmas: values that are put again -/

omit [Std.TransCmp cmp] in
/-- The value that is put last under a key stays. -/
theorem put_put_self (k : κ) (a b : α) (t : SortedTable κ α) :
    put cmp k b (put cmp k a t) = put cmp k b t := by
  have hself : cmp k k = .eq := Std.ReflCmp.compare_self
  induction t with
  | nil => simp [put, hself]
  | cons y t ih =>
    obtain ⟨l, c⟩ := y
    cases hcmp : cmp k l with
    | lt => simp [put, hcmp, hself]
    | eq => simp [put, hcmp, hself]
    | gt => simp [put, hcmp, ih]

omit [Std.LawfulEqCmp cmp] in
/-- Of two keys the lesser one is put in front of the other. -/
theorem put_comm_of_lt {k l : κ} (h : cmp k l = .lt) (a b : α) (t : SortedTable κ α) :
    put cmp k a (put cmp l b t) = put cmp l b (put cmp k a t) := by
  have hgt : cmp l k = .gt := Std.OrientedCmp.gt_of_lt h
  induction t with
  | nil => simp [put, h, hgt]
  | cons y t ih =>
    obtain ⟨x, c⟩ := y
    cases hl : cmp l x with
    | lt =>
      have hk : cmp k x = .lt := Std.TransCmp.lt_trans h hl
      simp [put, h, hgt, hk, hl]
    | eq =>
      have hk : cmp k x = .lt := Std.TransCmp.lt_of_lt_of_eq h hl
      simp [put, h, hgt, hk, hl]
    | gt =>
      cases hk : cmp k x with
      | lt => simp [put, hgt, hk, hl]
      | eq => simp [put, hgt, hk, hl]
      | gt => simp [put, hk, hl, ih]

theorem put_comm {k l : κ} (h : k ≠ l) (a b : α) (t : SortedTable κ α) :
    put cmp k a (put cmp l b t) = put cmp l b (put cmp k a t) := by
  cases hcmp : cmp k l with
  | lt => exact put_comm_of_lt hcmp a b t
  | eq => exact absurd (Std.LawfulEqCmp.eq_of_compare hcmp) h
  | gt => exact (put_comm_of_lt (Std.OrientedCmp.lt_of_gt hcmp) b a t).symm

/-- A value does not count under whose key another one is put later. -/
theorem putAll_put {rows : List (κ × α)} {k : κ} (h : k ∈ rows.map Prod.fst) (a : α)
    (t : SortedTable κ α) : putAll cmp rows (put cmp k a t) = putAll cmp rows t := by
  induction rows generalizing t with
  | nil => cases h
  | cons row rows ih =>
    have hstep : ∀ u, putAll cmp (row :: rows) u = putAll cmp rows (put cmp row.1 row.2 u) :=
      fun _ => rfl
    rw [hstep, hstep]
    by_cases hk : k = row.1
    · rw [hk, put_put_self]
    · rw [put_comm (Ne.symm hk)]
      exact ih ((List.mem_cons.1 h).resolve_left hk) _

/-- **What is put twice** is as if it was put once. -/
theorem putAll_putAll {rows rows' : List (κ × α)}
    (h : ∀ row ∈ rows', row.1 ∈ rows.map Prod.fst) (t : SortedTable κ α) :
    putAll cmp rows (putAll cmp rows' t) = putAll cmp rows t := by
  induction rows' generalizing t with
  | nil => rfl
  | cons row rows' ih =>
    have hstep : putAll cmp (row :: rows') t = putAll cmp rows' (put cmp row.1 row.2 t) := rfl
    rw [hstep, ih fun r hr => h r (List.mem_cons_of_mem row hr)]
    exact putAll_put (h row List.mem_cons_self) row.2 t

end

/-! ## Lemmas: parts of a table -/

/-- Values whose keys lie between two parts of a table do not touch these. -/
theorem putAll_append {rows : List (κ × α)} {a b : SortedTable κ α}
    (ha : ∀ row ∈ rows, ∀ x ∈ a, cmp row.1 x.1 = .gt)
    (hb : ∀ row ∈ rows, ∀ x ∈ b.head?, cmp row.1 x.1 = .lt) (t : SortedTable κ α) :
    putAll cmp rows (a ++ t ++ b) = a ++ putAll cmp rows t ++ b := by
  have hput : ∀ row ∈ rows, ∀ t : SortedTable κ α,
      put cmp row.1 row.2 (a ++ t ++ b) = a ++ put cmp row.1 row.2 t ++ b := by
    intro row hrow t
    replace ha := ha row hrow
    replace hb := hb row hrow
    induction a with
    | nil =>
      induction t with
      | nil =>
        cases b with
        | nil => rfl
        | cons x b => simp [put, hb x rfl]
      | cons x t ih =>
        simp only [List.nil_append, List.cons_append, put] at ih ⊢
        cases cmp row.1 x.1 <;> simp [ih]
    | cons x a ih =>
      simp only [List.cons_append, put, ha x List.mem_cons_self]
      rw [ih fun y hy => ha y (List.mem_cons_of_mem x hy)]
  induction rows generalizing t with
  | nil => rfl
  | cons row rows ih =>
    have hstep : ∀ u, putAll cmp (row :: rows) u = putAll cmp rows (put cmp row.1 row.2 u) :=
      fun _ => rfl
    rw [hstep, hstep, hput row List.mem_cons_self]
    exact ih (fun r hr => ha r (List.mem_cons_of_mem row hr))
      (fun r hr => hb r (List.mem_cons_of_mem row hr)) _
      fun r hr => hput r (List.mem_cons_of_mem row hr)

/-- Values under keys of one sort leave what is held under all others. -/
theorem filter_putAll_of_not [Std.LawfulEqCmp cmp] {p : κ → Bool} {rows : List (κ × α)}
    (h : ∀ row ∈ rows, p row.1 = false) (t : SortedTable κ α) :
    (putAll cmp rows t).filter (fun x => p x.1) = t.filter fun x => p x.1 := by
  have hput : ∀ (k : κ) (a : α) (t : SortedTable κ α), p k = false →
      (put cmp k a t).filter (fun x => p x.1) = t.filter fun x => p x.1 := by
    intro k a t hk
    induction t with
    | nil => simp [put, hk]
    | cons y t ih =>
      obtain ⟨l, b⟩ := y
      rw [put]
      cases hcmp : cmp k l with
      | lt => simp [hk]
      | eq =>
        have hl : p l = false := Std.LawfulEqCmp.eq_of_compare hcmp ▸ hk
        simp [hk, hl]
      | gt => simp only [List.filter_cons, ih]
  induction rows generalizing t with
  | nil => rfl
  | cons row rows ih =>
    have hstep : putAll cmp (row :: rows) t = putAll cmp rows (put cmp row.1 row.2 t) := rfl
    rw [hstep, ih fun r hr => h r (List.mem_cons_of_mem row hr)]
    exact hput row.1 row.2 t (h row List.mem_cons_self)

/-- What values become under a function they may become before they are put. -/
theorem map_putAll (cmp : κ → κ → Ordering) (f : α → β) (rows : List (κ × α))
    (t : SortedTable κ α) :
    (putAll cmp rows t).map (Prod.map id f) =
      putAll cmp (rows.map (Prod.map id f)) (t.map (Prod.map id f)) := by
  have hput : ∀ (k : κ) (a : α) (t : SortedTable κ α),
      (put cmp k a t).map (Prod.map id f) = put cmp k (f a) (t.map (Prod.map id f)) := by
    intro k a t
    induction t with
    | nil => rfl
    | cons y t ih =>
      obtain ⟨l, b⟩ := y
      simp only [put, List.map_cons, Prod.map_apply, id_eq]
      cases cmp k l <;> simp [ih]
  induction rows generalizing t with
  | nil => rfl
  | cons row rows ih =>
    have hstep := ih (put cmp row.1 row.2 t)
    rw [hput] at hstep
    exact hstep

end RoutineParams.SortedTable
