import Mathlib.Data.List.Basic
import RoutineParams.FileTree

/-!
# What lies at a path after a change

A change at a path is seen at that path and, on the way to it, in the entries of directories. Paths
that part from it lead to what they led to before.

    (n.put new path).at? path = some new                                      (at?_put_self)
    neither path leads through the other → (n.put new path).at? q = n.at? q   (at?_put_of_parts)
    a directory stays one where what is put or taken away is none     (isDirectoryAt_put_of_not)
    what is put where it lies already changes nothing                              (put_of_at?)
-/

namespace RoutineParams.Node

/-- Whether a node is a directory. -/
def IsDirectory (n : Node) : Prop := ∃ entries, n = directory entries

/-- Whether there is a directory at a path from a node on. -/
def IsDirectoryAt (n : Node) (path : List String) : Prop := ∃ m, n.at? path = some m ∧ m.IsDirectory

/-! ## Lemmas: paths -/

theorem text_ne {a b : String} (h : a ≠ b) : FileName.text a ≠ .text b :=
  fun heq => h (FileName.text.inj heq)

theorem at?_cons (n : Node) (name : String) (names : List String) :
    n.at? (name :: names) = (n.entries.lookup (.text name)).bind fun below => below.at? names := by
  rw [at?]
  cases n.entries.lookup (.text name) <;> rfl

theorem at?_append (n : Node) (p q : List String) :
    n.at? (p ++ q) = (n.at? p).bind fun below => below.at? q := by
  induction p generalizing n with
  | nil => rfl
  | cons name p ih =>
    rw [List.cons_append, at?_cons, at?_cons]
    cases n.entries.lookup (.text name) with
    | none => rfl
    | some below => exact ih below

theorem at?_append_singleton (n : Node) (p : List String) (name : String) :
    n.at? (p ++ [name]) = (n.at? p).bind fun below => below.entries.lookup (.text name) := by
  rw [at?_append]
  congr 1
  funext below
  rw [at?_cons]
  cases below.entries.lookup (.text name) <;> rfl

/-- What has something below it is a directory. -/
theorem isDirectory_of_lookup {n below : Node} {name : String}
    (h : n.entries.lookup (.text name) = some below) : n.IsDirectory := by
  cases n with
  | directory entries => exact ⟨entries, rfl⟩
  | file content => cases h

/-- The way to a directory leads through directories. -/
theorem IsDirectoryAt.of_append {n : Node} {p q : List String} (h : n.IsDirectoryAt (p ++ q)) :
    n.IsDirectoryAt p := by
  obtain ⟨m, hm, hdirectory⟩ := h
  rw [at?_append] at hm
  obtain ⟨below, hbelow, hm⟩ := Option.bind_eq_some_iff.1 hm
  refine ⟨below, hbelow, ?_⟩
  cases q with
  | nil =>
    obtain rfl := Option.some.inj hm
    exact hdirectory
  | cons name q =>
    rw [at?_cons] at hm
    obtain ⟨next, hnext, -⟩ := Option.bind_eq_some_iff.1 hm
    exact isDirectory_of_lookup hnext

/-! ## Lemmas: putting -/

theorem lookup_cons_eq (a b : FileName) (m : Node) (entries : List (FileName × Node)) :
    ((b, m) :: entries).lookup a = if a = b then some m else entries.lookup a := by
  rw [List.lookup_cons]
  by_cases h : a = b
  · rw [if_pos h, beq_iff_eq.2 h]
  · rw [if_neg h, beq_eq_false_iff_ne.2 h]

theorem lookup_replaceEntry (name : FileName) (n : Node) (entries : List (FileName × Node))
    (a : FileName) : (replaceEntry name n entries).lookup a =
      if a = name then (entries.lookup name).map fun _ => n else entries.lookup a := by
  induction entries with
  | nil => simp [replaceEntry]
  | cons e es ih =>
    obtain ⟨b, m⟩ := e
    rw [replaceEntry]
    by_cases hb : b = name
    · subst hb
      rw [if_pos rfl, lookup_cons_eq, lookup_cons_eq, lookup_cons_eq, if_pos rfl]
      by_cases ha : a = b
      · rw [if_pos ha, if_pos ha]
        rfl
      · rw [if_neg ha, if_neg ha, if_neg ha]
    · rw [if_neg hb, lookup_cons_eq, lookup_cons_eq, lookup_cons_eq, if_neg (Ne.symm hb), ih]
      by_cases hab : a = b
      · subst hab
        rw [if_pos rfl, if_neg hb, if_pos rfl]
      · rw [if_neg hab, if_neg hab]

theorem lookup_setEntry (name : FileName) (n : Node) (entries : List (FileName × Node))
    (a : FileName) :
    (setEntry name n entries).lookup a = if a = name then some n else entries.lookup a := by
  unfold setEntry
  split
  · rename_i hsome
    obtain ⟨m, hm⟩ := Option.isSome_iff_exists.1 hsome
    rw [lookup_replaceEntry, hm, Option.map_some]
  · rw [lookup_cons_eq]

theorem at?_put_cons (n new : Node) (name : String) (names : List String) (a : String)
    (q : List String) :
    (n.put new (name :: names)).at? (a :: q) =
      if a = name then (((n.entries.lookup (.text name)).getD (directory [])).put new names).at? q
      else n.at? (a :: q) := by
  rw [put, at?_cons, entries, lookup_setEntry]
  by_cases h : a = name
  · rw [if_pos h, if_pos (congrArg FileName.text h)]
    rfl
  · rw [if_neg h, if_neg (text_ne h), at?_cons]

/-- What was put lies where it was put. -/
theorem at?_put_self (n new : Node) (path : List String) :
    (n.put new path).at? path = some new := by
  induction path generalizing n with
  | nil => rfl
  | cons name names ih => rw [at?_put_cons, if_pos rfl, ih]

/-- On the way to what was put lie directories. -/
theorem isDirectoryAt_put_of_prefix {path q : List String} (h : q <+: path) (hne : q ≠ path)
    (n new : Node) : (n.put new path).IsDirectoryAt q := by
  induction path generalizing n q with
  | nil => exact absurd (List.prefix_nil.1 h) hne
  | cons name names ih =>
    cases q with
    | nil => exact ⟨_, rfl, _, rfl⟩
    | cons a q =>
      obtain ⟨rfl, hq⟩ := List.cons_prefix_cons.1 h
      unfold IsDirectoryAt
      rw [at?_put_cons, if_pos rfl]
      exact ih hq (fun heq => hne (congrArg (a :: ·) heq)) _

/-- On ways that part from what was put lies what lay there. -/
theorem at?_put_of_parts {path q : List String} (h : ¬path <+: q) (h' : ¬q <+: path)
    (n new : Node) : (n.put new path).at? q = n.at? q := by
  induction path generalizing n q with
  | nil => exact absurd List.nil_prefix h
  | cons name names ih =>
    cases q with
    | nil => exact absurd List.nil_prefix h'
    | cons a q =>
      rw [at?_put_cons]
      by_cases ha : a = name
      · subst ha
        have hq : ¬names <+: q := fun hq => h (List.cons_prefix_cons.2 ⟨rfl, hq⟩)
        have hq' : ¬q <+: names := fun hq => h' (List.cons_prefix_cons.2 ⟨rfl, hq⟩)
        rw [if_pos rfl, ih hq hq', at?_cons]
        cases n.entries.lookup (.text a) with
        | some below => rfl
        | none =>
          -- below what is not there nothing lies
          cases q with
          | nil => exact absurd List.nil_prefix hq'
          | cons b q => rfl
      · rw [if_neg ha]

/-- Putting something where there is no directory leaves all directories. -/
theorem isDirectoryAt_put_of_not {n : Node} {path q : List String} (h : ¬n.IsDirectoryAt path)
    (hq : n.IsDirectoryAt q) (new : Node) : (n.put new path).IsDirectoryAt q := by
  have hpath : ¬path <+: q := by
    rintro ⟨more, rfl⟩
    exact h hq.of_append
  by_cases hprefix : q <+: path
  · refine isDirectoryAt_put_of_prefix hprefix (fun heq => h (heq ▸ hq)) n new
  · unfold IsDirectoryAt
    rw [at?_put_of_parts hpath hprefix]
    exact hq

theorem replaceEntry_of_lookup {name : FileName} {n : Node} {entries : List (FileName × Node)}
    (h : entries.lookup name = some n) : replaceEntry name n entries = entries := by
  induction entries with
  | nil => rfl
  | cons e es ih =>
    obtain ⟨b, m⟩ := e
    rw [lookup_cons_eq] at h
    rw [replaceEntry]
    by_cases hb : b = name
    · subst hb
      rw [if_pos rfl] at h
      rw [if_pos rfl, Option.some.inj h]
    · rw [if_neg (Ne.symm hb)] at h
      rw [if_neg hb, ih h]

theorem setEntry_of_lookup {name : FileName} {n : Node} {entries : List (FileName × Node)}
    (h : entries.lookup name = some n) : setEntry name n entries = entries := by
  rw [setEntry, h, Option.isSome_some, if_pos rfl, replaceEntry_of_lookup h]

/-- What is put where it lies changes nothing. -/
theorem put_of_at? {n new : Node} {path : List String} (h : n.at? path = some new) :
    n.put new path = n := by
  induction path generalizing n with
  | nil => exact (Option.some.inj h).symm
  | cons name names ih =>
    rw [at?_cons] at h
    obtain ⟨below, hbelow, hnew⟩ := Option.bind_eq_some_iff.1 h
    obtain ⟨entries, rfl⟩ := isDirectory_of_lookup hbelow
    rw [put, hbelow, Option.getD_some, ih hnew, setEntry_of_lookup hbelow]
    rfl

/-! ## Lemmas: taking away -/

theorem lookup_filter_ne (entries : List (FileName × Node)) (name a : FileName) :
    (entries.filter fun e => e.1 != name).lookup a =
      if a = name then none else entries.lookup a := by
  induction entries with
  | nil => simp
  | cons e es ih =>
    obtain ⟨b, m⟩ := e
    rw [List.filter_cons]
    by_cases hb : b = name
    · subst hb
      rw [if_neg (by simp), ih, lookup_cons_eq]
      by_cases ha : a = b
      · rw [if_pos ha, if_pos ha]
      · rw [if_neg ha, if_neg ha, if_neg ha]
    · rw [if_pos (by simpa using hb), lookup_cons_eq, lookup_cons_eq, ih]
      by_cases hab : a = b
      · subst hab
        rw [if_pos rfl, if_neg hb, if_pos rfl]
      · rw [if_neg hab, if_neg hab]

/-- Nothing lies where it was taken away. -/
theorem at?_erase_self (n : Node) {path : List String} (h : path ≠ []) :
    (n.erase path).at? path = none := by
  induction path generalizing n with
  | nil => exact absurd rfl h
  | cons name names ih =>
    cases names with
    | nil => rw [erase, at?_cons, entries, lookup_filter_ne, if_pos rfl]; rfl
    | cons next names =>
      rw [erase]
      · split
        · rename_i below hbelow
          rw [at?_cons, entries, lookup_setEntry, if_pos rfl]
          exact ih below (by simp)
        · rename_i hnone
          rw [at?_cons, hnone]
          rfl
      · simp

/-- On ways that part from what was taken away lies what lay there. -/
theorem at?_erase_of_parts {path q : List String} (h : ¬path <+: q) (h' : ¬q <+: path)
    (n : Node) : (n.erase path).at? q = n.at? q := by
  induction path generalizing n q with
  | nil => exact absurd List.nil_prefix h
  | cons name names ih =>
    cases q with
    | nil => exact absurd List.nil_prefix h'
    | cons a q =>
      cases names with
      | nil =>
        have ha : a ≠ name := by
          rintro rfl
          exact h (List.cons_prefix_cons.2 ⟨rfl, List.nil_prefix⟩)
        rw [erase, at?_cons, at?_cons, entries, lookup_filter_ne, if_neg (text_ne ha)]
      | cons next names =>
        rw [erase]
        · split
          · rename_i below hbelow
            rw [at?_cons, at?_cons, entries, lookup_setEntry]
            by_cases ha : a = name
            · subst ha
              have hq : ¬next :: names <+: q := fun hq => h (List.cons_prefix_cons.2 ⟨rfl, hq⟩)
              have hq' : ¬q <+: next :: names := fun hq => h' (List.cons_prefix_cons.2 ⟨rfl, hq⟩)
              rw [if_pos rfl, hbelow]
              exact ih hq hq' below
            · rw [if_neg (text_ne ha)]
          · rfl
        · simp

/-- Taking away what is not there changes nothing. -/
theorem erase_of_at? {n : Node} {path : List String} {name : String} (hpath : n.IsDirectoryAt path)
    (h : n.at? (path ++ [name]) = none) : n.erase (path ++ [name]) = n := by
  induction path generalizing n with
  | nil =>
    obtain ⟨_, hn, entries, rfl⟩ := hpath
    obtain rfl := Option.some.inj hn
    have hlookup : entries.lookup (.text name) = none := by
      rwa [at?_append_singleton] at h
    have hfilter : (entries.filter fun e => e.1 != .text name) = entries := by
      rw [List.filter_eq_self]
      intro e he
      exact bne_iff_ne.2 (Ne.symm (by simpa using List.lookup_eq_none_iff.1 hlookup e he))
    rw [List.nil_append, erase, Node.entries, hfilter]
  | cons first names ih =>
    obtain ⟨m, hm, hdirectory⟩ := hpath
    rw [at?_cons] at hm
    obtain ⟨below, hbelow, hbelowPath⟩ := Option.bind_eq_some_iff.1 hm
    obtain ⟨entries, rfl⟩ := isDirectory_of_lookup hbelow
    have hbelow' : entries.lookup (.text first) = some below := hbelow
    have hnone : below.at? (names ++ [name]) = none := by
      rwa [List.cons_append, at?_cons, hbelow] at h
    have hsame := ih ⟨m, hbelowPath, hdirectory⟩ hnone
    rw [List.cons_append, erase]
    · simp only [Node.entries, hbelow', hsame, setEntry_of_lookup hbelow']
    · simp

/-- Taking away what is no directory leaves all directories. -/
theorem isDirectoryAt_erase_of_not {n : Node} {path q : List String} (h : ¬n.IsDirectoryAt path)
    (hq : n.IsDirectoryAt q) : (n.erase path).IsDirectoryAt q := by
  have hpath : ¬path <+: q := by
    rintro ⟨more, rfl⟩
    exact h hq.of_append
  induction path generalizing n q with
  | nil => exact absurd List.nil_prefix hpath
  | cons name names ih =>
    cases names with
    | nil =>
      rw [erase]
      cases q with
      | nil => exact ⟨_, rfl, _, rfl⟩
      | cons a q =>
        have ha : a ≠ name := by
          rintro rfl
          exact hpath (List.cons_prefix_cons.2 ⟨rfl, List.nil_prefix⟩)
        unfold IsDirectoryAt at hq ⊢
        rw [at?_cons] at hq ⊢
        rwa [entries, lookup_filter_ne, if_neg (text_ne ha)]
    | cons next names =>
      rw [erase]
      · split
        · rename_i below hbelow
          cases q with
          | nil => exact ⟨_, rfl, _, rfl⟩
          | cons a q =>
            unfold IsDirectoryAt at h hq ⊢
            rw [at?_cons] at h hq ⊢
            rw [entries, lookup_setEntry]
            by_cases ha : a = name
            · subst ha
              rw [hbelow] at h hq
              rw [if_pos rfl]
              exact ih h hq fun hq => hpath (List.cons_prefix_cons.2 ⟨rfl, hq⟩)
            · rwa [if_neg (text_ne ha)]
        · exact hq
      · simp

end RoutineParams.Node
