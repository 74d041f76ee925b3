import Mathlib.Algebra.GroupWithZero.Nat
import RoutineParams.Json.Writer
import RoutineParams.Json.Reader
import RoutineParams.Proofs.Characters

/-!
# Layouts of JSON values

A value is written on one line or over several. The two layouts differ only in the blanks between
the parts of a value, so that what is proved of a layout is proved of both. A value can be read if
its numbers are whole and of 64 bits, and the members of its objects have different names.

    Layout.onOneLine, Layout.overLines                                              the two layouts
    a readable value starts with what is no blank and closes nothing           (Layout.startsValue)
-/

namespace RoutineParams.Json

/-! ## Readable values and layouts -/

/-- A value that can be read where `depth` others may still lie around it. -/
inductive IsReadable : Nat → Json → Prop
  | null (depth : Nat) : IsReadable depth .null
  | bool (depth : Nat) (b : Bool) : IsReadable depth (.bool b)
  | int (depth : Nat) {n : Int} : n.natAbs < 2 ^ 64 → IsReadable depth (.int n)
  | str (depth : Nat) (s : String) : IsReadable depth (.str s)
  | arr {depth : Nat} {items : List Json} :
      (∀ j ∈ items, IsReadable depth j) → IsReadable (depth + 1) (.arr items)
  | obj {depth : Nat} {members : List (String × Json)} : (members.map Prod.fst).Nodup →
      (∀ m ∈ members, IsReadable depth m.2) → IsReadable (depth + 1) (.obj members)

/-- Whether a value holds no others. -/
def isScalar : Json → Bool
  | .arr _ | .obj _ => false
  | _ => true

/-- Parts between commas. -/
def joined (parts : List (List Char)) : List Char := [','].intercalate parts

/-- A way to lay values out: blanks stand before each part of a value, before the mark that closes
it, and after a colon. -/
structure Layout where
  write : Nat → Json → List Char
  gap : Nat → List Char
  afterColon : List Char
  gap_isSpace : ∀ level, ∀ c ∈ gap level, isSpace c = true
  afterColon_isSpace : ∀ c ∈ afterColon, isSpace c = true
  write_scalar : ∀ level j, j.isScalar = true → write level j = j.scalar
  write_arr_nil : ∀ level, write level (.arr []) = ['[', ']']
  write_arr : ∀ level items, items ≠ [] → write level (.arr items) =
    '[' :: (joined (items.map fun j => gap (level + 1) ++ write (level + 1) j) ++
      (gap level ++ [']']))
  write_obj_nil : ∀ level, write level (.obj []) = ['{', '}']
  write_obj : ∀ level members, members ≠ [] → write level (.obj members) =
    '{' :: (joined (members.map fun m => gap (level + 1) ++
      (quote m.1 ++ ':' :: (afterColon ++ write (level + 1) m.2))) ++ (gap level ++ ['}']))

/-! ## Lemmas: the two layouts -/

@[simp] theorem joined_singleton (part : List Char) : joined [part] = part := by
  simp [joined]

/-- A comma stands between a part and the next one. -/
theorem joined_map_cons {α : Type} (part : α → List Char) (a b : α) (as : List α) :
    joined ((a :: b :: as).map part) = part a ++ ',' :: joined ((b :: as).map part) := by
  simp [joined, List.intercalate]

/-- What is before the first comma stands in front, and the commas alone are as many as the other
parts. -/
theorem exists_joined_cons {α : Type} (part : α → List Char) (a : α) (as : List α) :
    ∃ tail, joined ((a :: as).map part) = part a ++ tail ∧ as.length ≤ tail.length := by
  induction as generalizing a with
  | nil => exact ⟨[], by simp⟩
  | cons b as ih =>
    obtain ⟨tail, htail, hlength⟩ := ih b
    refine ⟨',' :: (part b ++ tail), by rw [joined_map_cons, htail], ?_⟩
    simp only [List.length_cons, List.length_append]
    omega

theorem mem_joined {c : Char} {parts : List (List Char)} (h : c ∈ joined parts) :
    c = ',' ∨ ∃ part ∈ parts, c ∈ part := by
  induction parts with
  | nil => cases h
  | cons part parts ih =>
    cases parts with
    | nil => exact Or.inr ⟨part, List.mem_cons_self, by simpa using h⟩
    | cons next parts =>
      have hjoined := joined_map_cons id part next parts
      rw [List.map_id, List.map_id] at hjoined
      rw [hjoined, List.mem_append, List.mem_cons] at h
      rcases h with h | h | h
      · exact Or.inr ⟨part, List.mem_cons_self, h⟩
      · exact Or.inl h
      · exact (ih h).imp_right fun ⟨p, hp, hc⟩ => ⟨p, List.mem_cons_of_mem _ hp, hc⟩

theorem compactItems_eq : ∀ items, compactItems items = joined (items.map compact)
  | [] => rfl
  | [j] => by simp [compactItems]
  | j :: k :: items => by
    rw [compactItems, compactItems_eq (k :: items), joined_map_cons]
    simp

theorem compactMembers_eq : ∀ members, compactMembers members =
    joined (members.map fun m => quote m.1 ++ ':' :: compact m.2)
  | [] => rfl
  | [m] => by simp [compactMembers]
  | m :: l :: members => by
    rw [compactMembers, compactMembers_eq (l :: members), joined_map_cons]
    · simp
    · simp

theorem prettyItems_eq (level : Nat) : ∀ items, prettyItems level items =
    joined (items.map fun j => newline level ++ prettyAt level j)
  | [] => rfl
  | [j] => by simp [prettyItems]
  | j :: k :: items => by
    rw [prettyItems, prettyItems_eq level (k :: items), joined_map_cons]
    simp

theorem prettyMembers_eq (level : Nat) : ∀ members, prettyMembers level members =
    joined (members.map fun m => newline level ++ (quote m.1 ++ ':' :: ' ' :: prettyAt level m.2))
  | [] => rfl
  | [m] => by simp [prettyMembers]
  | m :: l :: members => by
    rw [prettyMembers, prettyMembers_eq level (l :: members), joined_map_cons]
    · simp
    · simp

theorem isSpace_of_mem_newline (level : Nat) : ∀ c ∈ newline level, isSpace c = true := by
  intro c hc
  simp only [newline, List.mem_cons, List.mem_replicate] at hc
  rcases hc with rfl | ⟨-, rfl⟩ <;> rfl

namespace Layout

/-- Everything on one line. -/
def onOneLine : Layout where
  write := fun _ => compact
  gap := fun _ => []
  afterColon := []
  gap_isSpace := by simp
  afterColon_isSpace := by simp
  write_scalar := fun _ j h => by cases j <;> first | rfl | cases h
  write_arr_nil := fun _ => rfl
  write_arr := fun _ items _ => by simp [compact, compactItems_eq]
  write_obj_nil := fun _ => rfl
  write_obj := fun _ members _ => by simp [compact, compactMembers_eq]

/-- Each part on a line of its own. -/
def overLines : Layout where
  write := prettyAt
  gap := newline
  afterColon := [' ']
  gap_isSpace := isSpace_of_mem_newline
  afterColon_isSpace := by simp [isSpace]
  write_scalar := fun _ j h => by cases j <;> first | rfl | cases h
  write_arr_nil := fun _ => rfl
  write_arr := fun level items h => by
    cases items with
    | nil => contradiction
    | cons j items => simp [prettyAt, prettyItems_eq]
  write_obj_nil := fun _ => rfl
  write_obj := fun level members h => by
    cases members with
    | nil => contradiction
    | cons m members => simp [prettyAt, prettyMembers_eq]

end Layout

/-! ## Lemmas: blanks and starts -/

theorem skipSpace_append {gap s : List Char} (h : ∀ c ∈ gap, isSpace c = true) :
    skipSpace (gap ++ s) = skipSpace s := List.dropWhile_append_of_pos h

theorem skipSpace_cons {c : Char} {s : List Char} (h : isSpace c = false) :
    skipSpace (c :: s) = c :: s := by
  simp [skipSpace, h]

theorem skipSpace_skipSpace (s : List Char) : skipSpace (skipSpace s) = skipSpace s := by
  induction s with
  | nil => rfl
  | cons c s ih =>
    cases h : isSpace c with
    | true => simpa [skipSpace, h] using ih
    | false => rw [skipSpace_cons h, skipSpace_cons h]

/-- A text that starts as a value does: with a character that is no blank and closes nothing. -/
def StartsValue (s : List Char) : Prop := ∃ c t, s = c :: t ∧ isSpace c = false ∧ c ≠ ']'

theorem StartsValue.append {s : List Char} (h : StartsValue s) (t : List Char) :
    StartsValue (s ++ t) := by
  obtain ⟨c, s, rfl, hc⟩ := h
  exact ⟨c, s ++ t, rfl, hc⟩

theorem StartsValue.skipSpace_eq {s : List Char} (h : StartsValue s) : skipSpace s = s := by
  obtain ⟨c, s, rfl, hc, -⟩ := h
  exact skipSpace_cons hc

theorem exists_decimalInt (n : Int) :
    ∃ c s, decimalInt n = c :: s ∧ (c = '-' ∨ c.isDigit = true) := by
  cases n with
  | ofNat n =>
    obtain ⟨c, s, hcs, hc⟩ := exists_decimal n
    exact ⟨c, s, hcs, Or.inr hc⟩
  | negSucc n => exact ⟨'-', RoutineParams.decimal (n + 1), rfl, Or.inl rfl⟩

theorem Layout.startsValue (l : Layout) {depth : Nat} {j : Json} (h : IsReadable depth j)
    (level : Nat) : StartsValue (l.write level j) := by
  cases h with
  | null => exact ⟨_, _, l.write_scalar _ _ rfl, by decide⟩
  | bool _ b => cases b <;> exact ⟨_, _, l.write_scalar _ _ rfl, by decide⟩
  | @int _ n =>
    obtain ⟨c, s, hcs, hc⟩ := exists_decimalInt n
    refine ⟨c, s, (l.write_scalar _ _ rfl).trans hcs, ?_⟩
    rcases hc with rfl | hc
    · decide
    · simp [isSpace, ne_of_class hc]
  | str => exact ⟨_, _, l.write_scalar _ _ rfl, by decide⟩
  | @arr _ items =>
    by_cases hne : items = []
    · exact ⟨_, _, hne ▸ l.write_arr_nil level, by decide⟩
    · exact ⟨_, _, l.write_arr level items hne, by decide⟩
  | @obj _ members =>
    by_cases hne : members = []
    · exact ⟨_, _, hne ▸ l.write_obj_nil level, by decide⟩
    · exact ⟨_, _, l.write_obj level members hne, by decide⟩

end RoutineParams.Json
