import RoutineParams.Proofs.Locations

/-!
# Trees that differ in what files hold

Two trees are alike if they have the same directories and files, whatever the files hold. A path
names the same in both, or is refused for the same reason; so where something lies, and whether it
is a file, is told alike. Writing to a file that is there gives a tree that is alike.

    t.Alike t' → t.find path and t'.find path agree on place and kind             (Alike.find)
    t.Alike t' → Database.location? t' path = Database.location? t path           (Alike.location?)
-/

namespace RoutineParams

/-- Two results agree: they are the same fault, or answers that `R` relates. -/
inductive Agrees {ε α β : Type} (R : α → β → Prop) : Except ε α → Except ε β → Prop
  | error (e : ε) : Agrees R (.error e) (.error e)
  | ok {a : α} {b : β} : R a b → Agrees R (.ok a) (.ok b)

theorem Agrees.bind {ε α β γ δ : Type} {R : α → β → Prop} {S : γ → δ → Prop} {x : Except ε α}
    {y : Except ε β} {f : α → Except ε γ} {g : β → Except ε δ} (h : Agrees R x y)
    (hfg : ∀ a b, R a b → Agrees S (f a) (g b)) : Agrees S (x >>= f) (y >>= g) := by
  cases h with
  | error e => exact .error e
  | ok hab => exact hfg _ _ hab

namespace FileTree

/-- Nothing lies at both places, or directories do, or files. -/
inductive SameKind : Option Node → Option Node → Prop
  | none : SameKind none none
  | directory (entries entries' : List (FileName × Node)) :
      SameKind (some (.directory entries)) (some (.directory entries'))
  | file (content content' : Content) : SameKind (some (.file content)) (some (.file content'))

theorem SameKind.refl (n : Option Node) : SameKind n n := by
  rcases n with _ | (entries | content)
  · exact .none
  · exact .directory ..
  · exact .file ..

theorem SameKind.trans {n n' n'' : Option Node} (h : SameKind n n') (h' : SameKind n' n'') :
    SameKind n n'' := by
  cases h <;> cases h'
  · exact .none
  · exact .directory ..
  · exact .file ..

theorem SameKind.symm {n n' : Option Node} (h : SameKind n n') : SameKind n' n := by
  cases h
  · exact .none
  · exact .directory ..
  · exact .file ..

/-- The same directories and files lie in both trees, whatever the files hold. -/
structure Alike (t t' : FileTree) : Prop where
  home : t'.home = t.home
  kinds : ∀ path, SameKind (t.node? path) (t'.node? path)

/-- Writing to a file that is there gives a tree that is alike. -/
theorem alike_put {t : FileTree} {loc : List String} {content : Content}
    (h : t.node? loc = some (.file content)) (content' : Content) :
    t.Alike (t.put loc (.file content')) := by
  refine ⟨rfl, fun path => ?_⟩
  have hself : (t.put loc (.file content')).root.at? loc = some (.file content') :=
    Node.at?_put_self _ _ _
  have hat : t.root.at? loc = some (.file content) := h
  by_cases hbelow : loc <+: path
  · -- below a file nothing lies
    obtain ⟨more, rfl⟩ := hbelow
    rw [node?, node?, Node.at?_append, Node.at?_append, hat, hself]
    cases more with
    | nil => exact .file ..
    | cons name names => exact .none
  by_cases habove : path <+: loc
  · have hne : path ≠ loc := by
      rintro rfl
      exact hbelow List.prefix_rfl
    obtain ⟨_, hput, _, rfl⟩ :=
      Node.isDirectoryAt_put_of_prefix habove hne t.root (.file content')
    have hput' : (t.put loc (.file content')).node? path = _ := hput
    obtain ⟨more, rfl⟩ := habove
    have hmore : more ≠ [] := by
      rintro rfl
      exact hne (List.append_nil path).symm
    obtain ⟨name, names, rfl⟩ := List.exists_cons_of_ne_nil hmore
    rw [Node.at?_append] at hat
    obtain ⟨n, hn, hbelow⟩ := Option.bind_eq_some_iff.1 hat
    rw [Node.at?_cons] at hbelow
    obtain ⟨below, hlookup, -⟩ := Option.bind_eq_some_iff.1 hbelow
    obtain ⟨entries, rfl⟩ := Node.isDirectory_of_lookup hlookup
    rw [hput', node?, hn]
    exact .directory ..
  · have hsame : (t.put loc (.file content')).node? path = t.node? path :=
      Node.at?_put_of_parts hbelow habove t.root _
    rw [hsame]
    exact .refl _

/-- Trails to the same directory of both trees. -/
def Parallel (t t' : FileTree) (trail trail' : Trail) : Prop :=
  trail'.path = trail.path ∧ t.Follows trail ∧ t'.Follows trail'

/-- The same entry of the same directory. -/
def SameTarget (t t' : FileTree) (g g' : Target) : Prop :=
  Parallel t t' g.trail g'.trail ∧ g'.name = g.name ∧ g'.slash = g.slash

/-- A directory or file at the same place. -/
def SamePlace (x x' : List String × Node) : Prop :=
  x'.1 = x.1 ∧ SameKind (some x.2) (some x'.2)

namespace Alike

variable {t t' : FileTree}

theorem refl (t : FileTree) : t.Alike t := ⟨rfl, fun _ => .refl _⟩

theorem symm (h : t.Alike t') : t'.Alike t := ⟨h.home.symm, fun path => (h.kinds path).symm⟩

theorem trans {t'' : FileTree} (h : t.Alike t') (h' : t'.Alike t'') : t.Alike t'' :=
  ⟨h'.home.trans h.home, fun path => (h.kinds path).trans (h'.kinds path)⟩

theorem isDirectory (h : t.Alike t') {path : List String} (hpath : t.IsDirectory path) :
    t'.IsDirectory path := by
  obtain ⟨_, hnode, entries, rfl⟩ := hpath
  have hkind := h.kinds path
  rw [show t.node? path = some (.directory entries) from hnode] at hkind
  generalize hnode' : t'.node? path = n' at hkind
  cases hkind with
  | directory _ entries' => exact ⟨_, hnode', entries', rfl⟩

theorem isProper (h : t.Alike t') (ht : t.IsProper) : t'.IsProper :=
  ⟨h.isDirectory ht.root, h.home ▸ ht.home⟩

theorem start (h : t.Alike t') (path : String) : t'.start path = t.start path := by
  rw [FileTree.start, FileTree.start, h.home]

/-! ## Lemmas: what paths name -/

theorem entry (h : t.Alike t') {trail trail' : Trail} (htrail : Parallel t t' trail trail')
    (name : String) : Agrees SameKind (t.entry trail name) (t'.entry trail' name) := by
  obtain ⟨hpath, hfollows, hfollows'⟩ := htrail
  by_cases hname : name.utf8ByteSize ≤ maxNameLength
  · rw [entry_eq hfollows hname, entry_eq hfollows' hname, hpath]
    exact .ok (h.kinds _)
  · rw [FileTree.entry, FileTree.entry, if_pos (Nat.not_le.1 hname), if_pos (Nat.not_le.1 hname)]
    exact .error _

/-- Names lead to the same directory in both trees, or are refused for the same reason. -/
theorem descend (h : t.Alike t') {trail trail' : Trail} (htrail : Parallel t t' trail trail')
    (names : List String) :
    Agrees (Parallel t t') (t.descend trail names) (t'.descend trail' names) := by
  induction names generalizing trail trail' with
  | nil => exact .ok htrail
  | cons name names ih =>
    obtain ⟨hpath, hfollows, hfollows'⟩ := id htrail
    rw [FileTree.descend, FileTree.descend]
    split
    · exact ih htrail
    split
    · exact ih ⟨by rw [path_tail, path_tail, hpath], hfollows.tail, hfollows'.tail⟩
    have hentry := h.entry htrail name
    generalize hfound : t.entry trail name = found at hentry
    generalize hfound' : t'.entry trail' name = found' at hentry
    cases hentry with
    | error f => exact .error f
    | ok hkind =>
      cases hkind with
      | none => exact .error _
      | file content content' => exact .error _
      | directory entries entries' =>
        refine ih ⟨?_, hfollows.cons hfound, hfollows'.cons hfound'⟩
        rw [path_cons, path_cons, hpath]

theorem target (h : t.Alike t') (path : String) :
    Agrees (SameTarget t t') (t.target path) (t'.target path) := by
  have hnil : Parallel t t' [] [] := ⟨rfl, trivial, trivial⟩
  rw [FileTree.target, FileTree.target]
  split
  · exact .error _
  split
  · exact .error _
  split
  · exact .error _
  rw [h.start]
  refine (h.descend hnil _).bind fun start start' hstart => ?_
  split
  · exact .ok ⟨hnil, rfl, rfl⟩
  split
  · exact (h.descend hstart _).bind fun trail trail' htrail => .ok ⟨htrail, rfl, rfl⟩
  · exact (h.descend hstart _).bind fun trail trail' htrail => .ok ⟨htrail, rfl, rfl⟩

/-- **A path names the same in both trees**, but for what a file holds. -/
theorem find (h : t.Alike t') (path : String) :
    Agrees SamePlace (t.find path) (t'.find path) := by
  rw [FileTree.find, FileTree.find]
  refine (h.target path).bind fun g g' hg => ?_
  obtain ⟨trail, name, slash⟩ := g
  obtain ⟨trail', name', slash'⟩ := g'
  obtain ⟨htrail, hname, hslash⟩ := hg
  obtain rfl : name' = name := hname
  obtain rfl : slash' = slash := hslash
  obtain ⟨hpath, hfollows, hfollows'⟩ : Parallel t t' trail trail' := htrail
  cases name' with
  | none =>
    have hkind := h.kinds trail.path
    rw [node?_path hfollows, ← hpath, node?_path hfollows'] at hkind
    exact .ok ⟨hpath, hkind⟩
  | some name =>
    refine (h.entry ⟨hpath, hfollows, hfollows'⟩ name).bind fun n n' hkind => ?_
    have hplace : trail'.path ++ [name] = trail.path ++ [name] := by rw [hpath]
    cases hkind with
    | none => exact .error _
    | directory entries entries' => exact .ok ⟨hplace, .directory ..⟩
    | file content content' =>
      cases slash' with
      | true => exact .error _
      | false => exact .ok ⟨hplace, .file ..⟩

theorem hasFile (h : t.Alike t') (path : String) : t'.hasFile path = t.hasFile path := by
  have hfind := h.find path
  rw [FileTree.hasFile, FileTree.hasFile]
  generalize t.find path = found at hfind
  generalize t'.find path = found' at hfind
  cases hfind with
  | error f => rfl
  | @ok x x' hsame =>
    obtain ⟨place, n⟩ := x
    obtain ⟨place', n'⟩ := x'
    obtain ⟨-, hkind⟩ : _ ∧ SameKind (some n) (some n') := hsame
    cases hkind <;> rfl

theorem directory? (h : t.Alike t') (path : String) : t'.directory? path = t.directory? path := by
  have hfind := h.find path
  rw [FileTree.directory?, FileTree.directory?]
  generalize t.find path = found at hfind
  generalize t'.find path = found' at hfind
  cases hfind with
  | error f => rfl
  | @ok x x' hsame =>
    obtain ⟨place, n⟩ := x
    obtain ⟨place', n'⟩ := x'
    obtain ⟨rfl, hkind⟩ : place' = place ∧ SameKind (some n) (some n') := hsame
    cases hkind <;> rfl

theorem hasNode (h : t.Alike t') (path : String) : t'.hasNode path = t.hasNode path := by
  have hfind := h.find path
  rw [FileTree.hasNode, FileTree.hasNode]
  generalize t.find path = found at hfind
  generalize t'.find path = found' at hfind
  cases hfind <;> rfl

theorem resolve (h : t.Alike t') (path names : List String) :
    Database.resolve t' path names = Database.resolve t path names := by
  induction names generalizing path with
  | nil => rfl
  | cons name names ih =>
    rw [Database.resolve, Database.resolve]
    split
    · exact ih path
    split
    · exact ih path.dropLast
    dsimp only
    split
    · rfl
    have hfind := h.find (Database.pathText (path ++ [name]))
    generalize t.find (Database.pathText (path ++ [name])) = found at hfind
    generalize t'.find (Database.pathText (path ++ [name])) = found' at hfind
    cases hfind with
    | ok _ => exact ih _
    | error f =>
      -- what is not there is no hindrance
      cases f <;> first | exact ih _ | rfl

/-- A database lies at the same place in both trees. -/
theorem location? (h : t.Alike t') (path : String) :
    Database.location? t' path = Database.location? t path := by
  rw [Database.location?, Database.location?, h.start, h.resolve]

end Alike

end FileTree

end RoutineParams
