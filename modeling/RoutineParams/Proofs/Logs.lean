import RoutineParams.Proofs.Records
import RoutineParams.Storage.Log

/-!
# Changes in a log

The pages in a log are whole pages, so a file with the changes in a log is cut into pages again
where they were joined: those in the log, and those of the file that the log does not have. The same
changes made once more are there already. A log that is too short for its header has none.

    a page of Log.apply log data, by its number                               (extract_apply)
    Log.apply log (Log.apply log data) = Log.apply log data                     (apply_apply)
-/

namespace RoutineParams.Storage

/-! ## Lemmas: pages -/

/-- Pages of one size are cut again where they were joined. -/
theorem take_drop_flatMap {α : Type} {f : α → List UInt8} {size : Nat} {xs : List α}
    (h : ∀ x ∈ xs, (f x).length = size) {i : Nat} (hi : i < xs.length) :
    ((xs.flatMap f).drop (i * size)).take size = f xs[i] := by
  induction xs generalizing i with
  | nil => cases hi
  | cons x xs ih =>
    have hx := h x List.mem_cons_self
    rw [List.flatMap_cons]
    cases i with
    | zero => rw [Nat.zero_mul, List.drop_zero, ← hx, List.take_left]; rfl
    | succ i =>
      have hplace : (i + 1) * size = (f x).length + i * size := by rw [hx, Nat.succ_mul, Nat.add_comm]
      rw [hplace, ← List.drop_drop, List.drop_left]
      exact ih (fun y hy => h y (List.mem_cons_of_mem x hy)) (Nat.lt_of_succ_lt_succ hi)

theorem PageFormat.size_fill {f : PageFormat} {data : ByteArray} (h : data.size ≤ f.size) :
    (f.fill data).size = f.size := by
  rw [fill, ByteArray.size_append]
  show data.size + (List.replicate (f.size - data.size) 0).toArray.size = f.size
  rw [List.size_toArray, List.length_replicate]
  omega

/-- A whole page has no rest. -/
theorem PageFormat.fill_of_size {f : PageFormat} {data : ByteArray} (h : data.size = f.size) :
    f.fill data = data := by
  rw [fill, h, Nat.sub_self]
  exact ByteArray.append_empty

theorem size_extract_page_le (data : ByteArray) (i size : Nat) :
    (data.extract (i * size) ((i + 1) * size)).size ≤ size := by
  rw [ByteArray.size_extract, Nat.succ_mul]
  omega

namespace Log

/-! ## Lemmas: logs -/

/-- Pages that are read from a log are whole. -/
def Changes.AreWhole (h : Header) (c : Changes) : Prop := ∀ p ∈ c.pages, p.2.size = h.page.size

theorem areWhole_of_readPages {log : ByteArray} {h : Header} {fuel start : Nat}
    {pages : List (Nat × ByteArray)} {complete : Option Changes} {s : Checksum} {c : Changes}
    (hpages : ∀ p ∈ pages, p.2.size = h.page.size)
    (hcomplete : ∀ c ∈ complete, c.AreWhole h)
    (hread : readPages log h fuel start pages complete s = some c) : c.AreWhole h := by
  induction fuel generalizing start pages complete s with
  | zero => exact hcomplete c hread
  | succ fuel ih =>
    unfold readPages at hread
    extract_lets stop s₁ s₂ number isSound pages' count at hread
    split at hread
    · rename_i hsound
      have hstop : stop ≤ log.size := by
        simp only [isSound, Bool.and_eq_true, decide_eq_true_eq] at hsound
        exact hsound.1.1.1
      have hpages' : ∀ p ∈ pages', p.2.size = h.page.size := by
        intro p hp
        rcases List.mem_cons.1 hp with rfl | hp
        · show (log.extract _ stop).size = _
          rw [ByteArray.size_extract]
          omega
        · exact hpages p hp
      refine ih hpages' (fun c hc => ?_) hread
      split at hc
      · exact hcomplete c hc
      · obtain rfl := Option.some.inj hc
        exact hpages'
    · exact hcomplete c hread

theorem areWhole_of_changes? {log : ByteArray} {h : Header} {c : Changes}
    (hlog : changes? log = some (h, c)) : c.AreWhole h := by
  unfold changes? at hlog
  obtain ⟨h', -, hlog⟩ := Option.bind_eq_some_iff.1 hlog
  obtain ⟨c', hread, hlog⟩ := Option.bind_eq_some_iff.1 hlog
  obtain ⟨rfl, rfl⟩ := Prod.mk.inj (Option.some.inj hlog)
  exact areWhole_of_readPages (fun p hp => by cases hp) (fun c hc => by cases hc) hread

/-! ## Lemmas: files with the changes in a log -/

/-- A page of a file with changes: the newest one in the log, or else that of the file. -/
def pageAfter (h : Header) (c : Changes) (data : ByteArray) (i : Nat) : ByteArray :=
  (c.pages.lookup (i + 1)).getD
    (h.page.fill (data.extract (i * h.page.size) ((i + 1) * h.page.size)))

theorem apply_of_none {log : ByteArray} (h : changes? log = none) (data : ByteArray) :
    apply log data = data := by
  rw [apply, h]

theorem toList_apply {log : ByteArray} {h : Header} {c : Changes}
    (hlog : changes? log = some (h, c)) (data : ByteArray) :
    (apply log data).data.toList =
      (List.range c.count).flatMap fun i => (pageAfter h c data i).data.toList := by
  have hfold : ∀ (is : List Nat) (done : ByteArray),
      (is.foldl (fun done i => done ++ pageAfter h c data i) done).data.toList =
        done.data.toList ++ is.flatMap fun i => (pageAfter h c data i).data.toList := by
    intro is
    induction is with
    | nil => simp
    | cons i is ih =>
      intro done
      rw [List.foldl_cons, ih, List.flatMap_cons, ByteArray.data_append, Array.toList_append,
        List.append_assoc]
  rw [apply, hlog]
  exact hfold _ _

theorem size_pageAfter {h : Header} {c : Changes} (hwhole : c.AreWhole h) (data : ByteArray)
    (i : Nat) : (pageAfter h c data i).size = h.page.size := by
  unfold pageAfter
  cases hlookup : c.pages.lookup (i + 1) with
  | none => exact PageFormat.size_fill (size_extract_page_le ..)
  | some page =>
    obtain ⟨before, after, hpages, -⟩ := List.lookup_eq_some_iff.1 hlookup
    exact hwhole (i + 1, page) (by rw [hpages]; simp)

/-- **The pages of a file with changes** are cut from it again. -/
theorem extract_apply {log : ByteArray} {h : Header} {c : Changes}
    (hlog : changes? log = some (h, c)) (data : ByteArray) {i : Nat} (hi : i < c.count) :
    (apply log data).extract (i * h.page.size) ((i + 1) * h.page.size) = pageAfter h c data i := by
  have hwhole := areWhole_of_changes? hlog
  refine ByteArray.ext (Array.toList_inj.1 ?_)
  rw [ByteArray.data_extract, Array.toList_extract, List.extract_eq_take_drop, toList_apply hlog,
    Nat.succ_mul, Nat.add_sub_cancel_left,
    take_drop_flatMap (f := fun i => (pageAfter h c data i).data.toList)
      (fun j _ => size_pageAfter hwhole data j) (by simpa using hi),
    List.getElem_range]

/-- **Changes that were made once** are there already. -/
theorem apply_apply (log data : ByteArray) : apply log (apply log data) = apply log data := by
  cases hlog : changes? log with
  | none => rw [apply_of_none hlog, apply_of_none hlog]
  | some x =>
    obtain ⟨h, c⟩ := x
    refine ByteArray.ext (Array.toList_inj.1 ?_)
    rw [toList_apply hlog, toList_apply hlog]
    refine List.flatMap_congr fun i hi => congrArg (fun page : ByteArray => page.data.toList) ?_
    rw [pageAfter, extract_apply hlog data (List.mem_range.1 hi),
      PageFormat.fill_of_size (size_pageAfter (areWhole_of_changes? hlog) data i), pageAfter]
    cases c.pages.lookup (i + 1) <;> rfl

/-- A log that is too short has no changes. -/
theorem apply_of_short {log : ByteArray} (h : log.size < headerLength) (data : ByteArray) :
    apply log data = data := by
  have hnone : header? log = none := if_neg fun hsound => Nat.not_le.2 h hsound.1
  refine apply_of_none ?_ data
  rw [changes?, hnone]
  rfl

end Log

end RoutineParams.Storage
