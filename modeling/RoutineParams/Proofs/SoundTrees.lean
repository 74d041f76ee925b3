import RoutineParams.Proofs.Nodes
import RoutineParams.Proofs.Trails

/-!
# Sound trees

What a file system can hold: the entries of a directory have different names, and a text that is a
name leads down. Then the names on the way to a file below a directory are those of no other.

    n.IsSound → n.descendants.Pairwise fun x y => x.1 ≠ y.1            (IsSound.pairwise_descendants)
    t.IsSound → (t.filesBelow dir).Pairwise fun x y => x.1 ≠ y.1       (IsSound.pairwise_filesBelow)
-/

namespace RoutineParams

/-! ## Definitions -/

/-- A name as file systems hold it: a text leads down. -/
def FileName.IsSound : FileName → Prop
  | text name => FilePath.LeadsDown name
  | bytes _ _ => True

instance : DecidablePred FileName.IsSound
  | .text name => inferInstanceAs (Decidable (FilePath.LeadsDown name))
  | .bytes _ _ => .isTrue trivial

@[simp] theorem FileName.isSound_text {name : String} :
    (FileName.text name).IsSound ↔ FilePath.LeadsDown name := Iff.rfl

/-- What lies in a file system: the entries of a directory have different names, as file systems
hold them, and are such nodes again. -/
inductive Node.IsSound : Node → Prop
  | file (content : Content) : IsSound (.file content)
  | directory {entries : List (FileName × Node)} :
      (entries.map Prod.fst).Nodup → (∀ e ∈ entries, e.1.IsSound) →
        (∀ e ∈ entries, IsSound e.2) → IsSound (.directory entries)

/-- A tree that a file system can hold. -/
def FileTree.IsSound (t : FileTree) : Prop := t.root.IsSound

/-! ## Lemmas: what lies below a node -/

namespace Node

theorem entryDescendants_eq (entries : List (FileName × Node)) :
    entryDescendants entries = entries.flatMap fun e =>
      ([e.1], e.2) :: e.2.descendants.map fun x => (e.1 :: x.1, x.2) := by
  induction entries with
  | nil => rfl
  | cons e entries ih => rw [entryDescendants, ih, List.flatMap_cons]

theorem mem_descendants_directory {entries : List (FileName × Node)} {x : List FileName × Node} :
    x ∈ (directory entries).descendants ↔
      ∃ e ∈ entries, x = ([e.1], e.2) ∨ ∃ y ∈ e.2.descendants, x = (e.1 :: y.1, y.2) := by
  rw [descendants, entryDescendants_eq, List.mem_flatMap]
  simp [eq_comm]

namespace IsSound

theorem of_at? {n m : Node} (h : n.IsSound) {path : List String} (hm : n.at? path = some m) :
    m.IsSound := by
  induction path generalizing n with
  | nil =>
    obtain rfl := Option.some.inj hm
    exact h
  | cons name path ih =>
    rw [at?] at hm
    cases hbelow : n.entries.lookup (.text name) with
    | none =>
      rw [hbelow] at hm
      cases hm
    | some below =>
      rw [hbelow] at hm
      obtain ⟨before, after, hentries, -⟩ := List.lookup_eq_some_iff.1 hbelow
      cases h with
      | file => simp [entries] at hbelow
      | directory _ _ hnodes => exact ih (hnodes (.text name, below) (by simp_all [entries])) hm

/-- The paths to what lies below a node are no dead ends. -/
theorem names {n : Node} (h : n.IsSound) :
    ∀ x ∈ n.descendants, x.1 ≠ [] ∧ ∀ name ∈ x.1, name.IsSound := by
  induction h with
  | file => intro x hx; cases hx
  | directory _ hnames _ ih =>
    intro x hx
    obtain ⟨e, he, rfl | ⟨y, hy, rfl⟩⟩ := mem_descendants_directory.1 hx
    · exact ⟨List.cons_ne_nil _ _, by simpa using hnames e he⟩
    · exact ⟨List.cons_ne_nil _ _, List.forall_mem_cons.2 ⟨hnames e he, (ih e he y hy).2⟩⟩

/-- The paths to what lies below a node are all different. -/
theorem pairwise_descendants {n : Node} (h : n.IsSound) :
    n.descendants.Pairwise fun x y => x.1 ≠ y.1 := by
  induction h with
  | file => exact .nil
  | @directory entries hnodup _ hnodes ih =>
    rw [descendants, entryDescendants_eq, List.pairwise_flatMap]
    constructor
    · -- the paths through one entry
      intro e he
      refine List.pairwise_cons.2 ⟨fun x hx hpath => ?_, List.pairwise_map.2 ?_⟩
      · obtain ⟨y, hy, rfl⟩ := List.mem_map.1 hx
        exact ((hnodes e he).names y hy).1 (List.cons.inj hpath).2.symm
      · exact (ih e he).imp fun hne hpath => hne (List.cons.inj hpath).2
    · -- the paths through two entries differ in their first names
      have hfirst : ∀ e : FileName × Node, ∀ x ∈ ([e.1], e.2) :: e.2.descendants.map fun x =>
          (e.1 :: x.1, x.2), x.1.head? = some e.1 := by
        intro e x hx
        rcases List.mem_cons.1 hx with rfl | hx
        · rfl
        · obtain ⟨y, -, rfl⟩ := List.mem_map.1 hx
          rfl
      refine (List.pairwise_map.1 hnodup).imp fun hne x hx y hy hpath => hne ?_
      have hsame := hfirst _ x hx
      rw [hpath, hfirst _ y hy] at hsame
      exact (Option.some.inj hsame).symm

end IsSound

end Node

theorem FileTree.mem_filesBelow {t : FileTree} {directory : List String}
    {x : List FileName × Content} :
    x ∈ t.filesBelow directory ↔
      ∃ n, t.node? directory = some n ∧ (x.1, Node.file x.2) ∈ n.descendants := by
  unfold filesBelow
  split
  · next hnone => simp [hnone]
  · next n hn =>
    simp only [hn, Option.some.injEq, exists_eq_left', List.mem_filterMap]
    constructor
    · rintro ⟨⟨path, node⟩, hmem, hfile⟩
      cases node with
      | directory => cases hfile
      | file content =>
        obtain rfl := Option.some.inj hfile
        exact hmem
    · exact fun hmem => ⟨_, hmem, rfl⟩

namespace FileTree.IsSound

variable {t : FileTree} (h : t.IsSound) (directory : List String)
include h

theorem of_mem_filesBelow {x : List FileName × Content} (hx : x ∈ t.filesBelow directory) :
    x.1 ≠ [] ∧ ∀ name ∈ x.1, name.IsSound := by
  obtain ⟨n, hn, hmem⟩ := mem_filesBelow.1 hx
  exact (Node.IsSound.of_at? h hn).names _ hmem

theorem pairwise_filesBelow : (t.filesBelow directory).Pairwise fun x y => x.1 ≠ y.1 := by
  unfold filesBelow
  split
  · exact .nil
  · next n hn =>
    refine (Node.IsSound.of_at? h hn).pairwise_descendants.filterMap _ ?_
    rintro ⟨path, node⟩ ⟨path', node'⟩ hne x hx y hy
    cases node with
    | directory => cases hx
    | file =>
      cases node' with
      | directory => cases hy
      | file =>
        obtain rfl := Option.some.inj hx
        obtain rfl := Option.some.inj hy
        exact hne

end FileTree.IsSound

end RoutineParams
