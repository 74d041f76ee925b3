import RoutineParams.Proofs.Characters
import RoutineParams.Text.Blank

/-!
# Changes of blanks

A text in which every blank is replaced by one blank or more, and behind which blanks may follow, is
blank where it was before and loses the same characters at its ends.

    Respaces g                                     g changes blanks alone, and leaves some for each
    trimBlank (a ++ s ++ b) = trimBlank s for blank texts a, b   (trimBlank_append_left, …_right)
    trimBlank (s.flatMap g) = (trimBlank s).flatMap g                        (Respaces.trimBlank_eq)
-/

namespace RoutineParams

/-- A change of blanks: each of them becomes one blank or more, and all other characters stay. -/
structure Respaces (g : Char → List Char) : Prop where
  keeps : ∀ c, isBlank c = false → g c = [c]
  ne_nil : ∀ c, g c ≠ []
  isAllBlank : ∀ c, isBlank c = true → isAllBlank (g c) = true

/-! ## Lemmas: blank ends -/

@[simp] theorem isAllBlank_nil : isAllBlank [] = true := rfl

@[simp] theorem isAllBlank_cons (c : Char) (s : List Char) :
    isAllBlank (c :: s) = (isBlank c && isAllBlank s) := List.all_cons

@[simp] theorem isAllBlank_append (a b : List Char) :
    isAllBlank (a ++ b) = (isAllBlank a && isAllBlank b) := List.all_append

@[simp] theorem isAllBlank_reverse (s : List Char) : isAllBlank s.reverse = isAllBlank s :=
  List.all_reverse

theorem dropWhile_isBlank_append {a : List Char} (ha : isAllBlank a = true) (s : List Char) :
    (a ++ s).dropWhile isBlank = s.dropWhile isBlank :=
  List.dropWhile_append_of_pos (List.all_eq_true.1 ha)

theorem dropWhile_isBlank_of_all {s : List Char} (h : isAllBlank s = true) :
    s.dropWhile isBlank = [] := (dropWhile_eq_nil_iff_all isBlank s).2 h

theorem isAllBlank_takeWhile (s : List Char) : isAllBlank (s.takeWhile isBlank) = true :=
  List.all_takeWhile

/-- A text that is not blank has a first character that is none. -/
theorem exists_nonblank {s : List Char} (h : isAllBlank s = false) :
    ∃ a c t, s = a ++ c :: t ∧ isAllBlank a = true ∧ isBlank c = false := by
  cases hd : s.dropWhile isBlank with
  | nil => rw [isAllBlank, (dropWhile_eq_nil_iff_all isBlank s).1 hd] at h; cases h
  | cons c t =>
    refine ⟨s.takeWhile isBlank, c, t, ?_, isAllBlank_takeWhile s,
      head_dropWhile_false isBlank s hd⟩
    rw [← hd, List.takeWhile_append_dropWhile]

theorem dropWhile_isBlank_of_nonblank {a : List Char} {c : Char} (ha : isAllBlank a = true)
    (hc : isBlank c = false) (t : List Char) : (a ++ c :: t).dropWhile isBlank = c :: t := by
  rw [dropWhile_isBlank_append ha, List.dropWhile_cons_of_neg (by simp [hc])]

theorem dropWhile_isBlank_of_head? {r : List Char} (hr : ∀ c ∈ r.head?, isBlank c = false) :
    r.dropWhile isBlank = r := by
  cases r with
  | nil => rfl
  | cons c r => exact List.dropWhile_cons_of_neg (by simp [hr c rfl])

theorem takeWhile_isBlank_of_nonblank {a : List Char} {c : Char} (ha : isAllBlank a = true)
    (hc : isBlank c = false) (t : List Char) : (a ++ c :: t).takeWhile isBlank = a := by
  rw [List.takeWhile_append_of_pos (List.all_eq_true.1 ha),
    List.takeWhile_cons_of_neg (by simp [hc]), List.append_nil]

theorem trimBlank_append_left {a : List Char} (ha : isAllBlank a = true) (s : List Char) :
    trimBlank (a ++ s) = trimBlank s := by
  rw [trimBlank, trimBlank, dropWhile_isBlank_append ha]

theorem trimBlank_of_all {s : List Char} (h : isAllBlank s = true) : trimBlank s = [] :=
  (isAllBlank_iff_trimBlank s).1 h

theorem dropEndWhile_append {b : List Char} (hb : isAllBlank b = true) (s : List Char) :
    dropEndWhile isBlank (s ++ b) = dropEndWhile isBlank s := by
  rw [dropEndWhile, dropEndWhile, List.reverse_append,
    dropWhile_isBlank_append (by rwa [isAllBlank_reverse])]

theorem trimBlank_append_right {b : List Char} (hb : isAllBlank b = true) (s : List Char) :
    trimBlank (s ++ b) = trimBlank s := by
  cases hs : isAllBlank s with
  | true => rw [trimBlank_of_all hs, trimBlank_of_all (by simp [hs, hb])]
  | false =>
    obtain ⟨a, c, t, rfl, ha, hc⟩ := exists_nonblank hs
    rw [List.append_assoc, trimBlank_append_left ha, trimBlank_append_left ha]
    rw [List.cons_append, trimBlank, trimBlank, List.dropWhile_cons_of_neg (by simp [hc]),
      List.dropWhile_cons_of_neg (by simp [hc]), ← List.cons_append, dropEndWhile_append hb]

/-- A text is what is left of it between the blanks at its ends. -/
theorem exists_trimBlank (s : List Char) :
    ∃ a b, s = a ++ (trimBlank s ++ b) ∧ isAllBlank a = true ∧ isAllBlank b = true := by
  refine ⟨s.takeWhile isBlank, ((s.dropWhile isBlank).reverse.takeWhile isBlank).reverse, ?_,
    isAllBlank_takeWhile s, by rw [isAllBlank_reverse]; exact isAllBlank_takeWhile _⟩
  rw [trimBlank, dropEndWhile, ← List.reverse_append, List.takeWhile_append_dropWhile,
    List.reverse_reverse, List.takeWhile_append_dropWhile]

theorem trimBlank_trimBlank (s : List Char) : trimBlank (trimBlank s) = trimBlank s := by
  obtain ⟨a, b, hs, ha, hb⟩ := exists_trimBlank s
  calc trimBlank (trimBlank s)
      = trimBlank (a ++ (trimBlank s ++ b)) := by
        rw [trimBlank_append_left ha, trimBlank_append_right hb]
    _ = trimBlank s := by rw [← hs]

/-! ## Lemmas: changed blanks -/

namespace Respaces

variable {g : Char → List Char} (hg : Respaces g)

/-- To leave the blanks as they are changes blanks alone. -/
theorem singleton : Respaces fun c => [c] :=
  ⟨fun _ _ => rfl, fun c => List.cons_ne_nil c [], fun c hc => by simpa using hc⟩

include hg

theorem isAllBlank_eq (c : Char) : RoutineParams.isAllBlank (g c) = isBlank c := by
  cases hc : isBlank c with
  | true => exact hg.isAllBlank c hc
  | false => simp [hg.keeps c hc, hc]

theorem isAllBlank_flatMap (s : List Char) :
    RoutineParams.isAllBlank (s.flatMap g) = RoutineParams.isAllBlank s := by
  induction s with
  | nil => rfl
  | cons c s ih => rw [List.flatMap_cons, isAllBlank_append, hg.isAllBlank_eq, ih, isAllBlank_cons]

/-- A text without blanks stays. -/
theorem flatMap_of_nonblank {s : List Char} (h : ∀ c ∈ s, isBlank c = false) : s.flatMap g = s := by
  induction s with
  | nil => rfl
  | cons c s ih =>
    rw [List.flatMap_cons, hg.keeps c (h c List.mem_cons_self),
      ih fun d hd => h d (List.mem_cons_of_mem c hd), List.singleton_append]

theorem flatMap_eq_nil_iff (s : List Char) : s.flatMap g = [] ↔ s = [] := by
  cases s with
  | nil => exact iff_of_true rfl rfl
  | cons c s => simp [hg.ne_nil c]

/-- What is no blank is in a text after a change of blanks if it was before. -/
theorem mem_flatMap_iff {c : Char} (hc : isBlank c = false) (s : List Char) :
    c ∈ s.flatMap g ↔ c ∈ s := by
  rw [List.mem_flatMap]
  constructor
  · rintro ⟨d, hd, hcd⟩
    cases hblank : isBlank d with
    | true =>
      have hall := List.all_eq_true.1 (hg.isAllBlank d hblank) c hcd
      rw [hc] at hall
      cases hall
    | false =>
      rw [hg.keeps d hblank, List.mem_singleton] at hcd
      exact hcd ▸ hd
  · intro h
    exact ⟨c, h, by simp [hg.keeps c hc]⟩

theorem dropWhile_flatMap (s : List Char) :
    (s.flatMap g).dropWhile isBlank = (s.dropWhile isBlank).flatMap g := by
  cases hs : RoutineParams.isAllBlank s with
  | true =>
    rw [dropWhile_isBlank_of_all hs,
      dropWhile_isBlank_of_all ((hg.isAllBlank_flatMap s).trans hs), List.flatMap_nil]
  | false =>
    obtain ⟨a, c, t, rfl, ha, hc⟩ := exists_nonblank hs
    have hflat : (a ++ c :: t).flatMap g = a.flatMap g ++ c :: t.flatMap g := by
      rw [List.flatMap_append, List.flatMap_cons, hg.keeps c hc, List.singleton_append]
    rw [hflat, dropWhile_isBlank_of_nonblank ((hg.isAllBlank_flatMap a).trans ha) hc,
      dropWhile_isBlank_of_nonblank ha hc, List.flatMap_cons, hg.keeps c hc,
      List.singleton_append]

/-- Read from its end, a change of blanks is one. -/
theorem reverse : Respaces fun c => (g c).reverse :=
  ⟨fun c hc => by rw [hg.keeps c hc]; rfl, fun c => by simpa using hg.ne_nil c,
    fun c hc => by rw [isAllBlank_reverse]; exact hg.isAllBlank c hc⟩

/-- **The blanks at the ends of a text** are lost before a change of blanks or after it. -/
theorem trimBlank_eq (s : List Char) : trimBlank (s.flatMap g) = (trimBlank s).flatMap g := by
  have hreverse : ∀ t : List Char,
      (t.flatMap g).reverse = t.reverse.flatMap fun c => (g c).reverse := by
    intro t
    exact List.reverse_flatMap ..
  have hback : ∀ t : List Char,
      (t.flatMap fun c => (g c).reverse).reverse = t.reverse.flatMap g := by
    intro t
    rw [List.reverse_flatMap]
    exact congrArg t.reverse.flatMap (funext fun c => List.reverse_reverse (g c))
  rw [trimBlank, trimBlank, hg.dropWhile_flatMap, dropEndWhile, dropEndWhile, hreverse,
    hg.reverse.dropWhile_flatMap, hback]

end Respaces

end RoutineParams
