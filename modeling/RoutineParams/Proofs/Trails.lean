import RoutineParams.Database
import RoutineParams.Proofs.Nodes

/-!
# Names that lead to directories

The names of a path are followed from directory to directory. A trail is the way that was followed,
with what lies on it; which path from the root it has is told by the names alone, and the tree only
has to have the directories. So names lead where they led as long as directories stay.

    t.descend trail names = .ok trail' → names lead from the path of the one to that of the other,
      and back again                                         (leads_of_descend, descend_of_leads)
    t.Leads path names path' → t'.Leads path names path', where directories of t are directories
      of t'                                                                        (Leads.mono)
-/

namespace RoutineParams

/-- A name that stands for itself in a path and that a directory can hold. -/
def FilePath.IsPlain (name : String) : Prop :=
  FilePath.isIdle name = false ∧ name ≠ ".." ∧ '/' ∉ name.toList ∧ '\x00' ∉ name.toList ∧
    name.utf8ByteSize ≤ FileTree.maxNameLength

/-- A name that leads down in a path. -/
def FilePath.LeadsDown (name : String) : Prop :=
  FilePath.isIdle name = false ∧ name ≠ ".." ∧ '/' ∉ name.toList

instance (name : String) : Decidable (FilePath.LeadsDown name) :=
  inferInstanceAs (Decidable (_ ∧ _ ∧ _))

theorem FilePath.IsPlain.leadsDown {name : String} (h : FilePath.IsPlain name) :
    FilePath.LeadsDown name := ⟨h.1, h.2.1, h.2.2.1⟩

namespace FileTree

/-- Whether there is a directory at a path from the root. -/
def IsDirectory (t : FileTree) (path : List String) : Prop := t.root.IsDirectoryAt path

/-- A tree as file systems have them: there is a directory at the root, and the names on the way to
the home directory are plain. -/
structure IsProper (t : FileTree) : Prop where
  root : t.IsDirectory []
  home : ∀ name ∈ t.home, FilePath.IsPlain name

/-- Names lead from one path from the root to another, always to a directory. -/
inductive Leads (t : FileTree) : (path names path' : List String) → Prop
  | here {path : List String} : Leads t path [] path
  | idle {path names path' : List String} {name : String} :
      FilePath.isIdle name = true → Leads t path names path' → Leads t path (name :: names) path'
  | up {path names path' : List String} :
      Leads t path.dropLast names path' → Leads t path (".." :: names) path'
  | down {path names path' : List String} {name : String} :
      FilePath.isIdle name = false → name ≠ ".." → name.utf8ByteSize ≤ maxNameLength →
        t.IsDirectory (path ++ [name]) → Leads t (path ++ [name]) names path' →
        Leads t path (name :: names) path'

/-- A trail that goes from directory to directory of the tree. -/
def Follows (t : FileTree) : Trail → Prop
  | [] => True
  | (name, n) :: trail =>
    n.IsDirectory ∧ (t.endOf trail).entries.lookup (.text name) = some n ∧ t.Follows trail

/-! ## Lemmas: trails -/

theorem path_cons (x : String × Node) (trail : Trail) :
    Trail.path (x :: trail) = trail.path ++ [x.1] := by
  simp [Trail.path]

theorem path_tail (trail : Trail) : Trail.path trail.tail = trail.path.dropLast := by
  cases trail with
  | nil => rfl
  | cons x trail => rw [path_cons, List.dropLast_concat, List.tail_cons]

theorem Follows.tail {t : FileTree} {trail : Trail} (h : t.Follows trail) :
    t.Follows trail.tail := by
  cases trail with
  | nil => exact h
  | cons x trail => exact h.2.2

theorem node?_path {t : FileTree} {trail : Trail} (h : t.Follows trail) :
    t.node? trail.path = some (t.endOf trail) := by
  induction trail with
  | nil => rfl
  | cons x trail ih =>
    obtain ⟨name, n⟩ := x
    obtain ⟨-, hlookup, htrail⟩ := h
    have hpath : t.root.at? (Trail.path trail) = some (t.endOf trail) := ih htrail
    rw [path_cons, node?, Node.at?_append_singleton, hpath]
    exact hlookup

/-- What a directory at the end of a trail has is what lies below its path. -/
theorem entry_eq {t : FileTree} {trail : Trail} (h : t.Follows trail) {name : String}
    (hname : name.utf8ByteSize ≤ maxNameLength) :
    t.entry trail name = .ok (t.node? (trail.path ++ [name])) := by
  have hpath : t.root.at? trail.path = some (t.endOf trail) := node?_path h
  rw [entry, if_neg (Nat.not_lt.2 hname), node?, Node.at?_append_singleton, hpath]
  rfl

theorem le_maxNameLength_of_entry {t : FileTree} {trail : Trail} {name : String} {n : Option Node}
    (h : t.entry trail name = .ok n) : name.utf8ByteSize ≤ maxNameLength := by
  unfold entry at h
  split at h
  · cases h
  · exact Nat.not_lt.1 ‹_›

/-- An entry that can be looked up is what lies below the path of the trail. -/
theorem node?_of_entry {t : FileTree} {trail : Trail} (h : t.Follows trail) {name : String}
    {n : Option Node} (hentry : t.entry trail name = .ok n) :
    name.utf8ByteSize ≤ maxNameLength ∧ t.node? (trail.path ++ [name]) = n := by
  have hname := le_maxNameLength_of_entry hentry
  rw [entry_eq h hname] at hentry
  exact ⟨hname, Except.ok.inj hentry⟩

/-- A trail goes on to the directories that the one at its end has. -/
theorem Follows.cons {t : FileTree} {trail : Trail} (h : t.Follows trail) {name : String}
    {entries : List (FileName × Node)}
    (hentry : t.entry trail name = .ok (some (.directory entries))) :
    t.Follows ((name, .directory entries) :: trail) := by
  rw [entry, if_neg (Nat.not_lt.2 (le_maxNameLength_of_entry hentry))] at hentry
  exact ⟨⟨entries, rfl⟩, Except.ok.inj hentry, h⟩

/-- A trail that is descended leads to its path. -/
theorem leads_of_descend {t : FileTree} {trail trail' : Trail} {names : List String}
    (h : t.Follows trail) (hnames : t.descend trail names = .ok trail') :
    t.Leads trail.path names trail'.path ∧ t.Follows trail' := by
  induction names generalizing trail with
  | nil =>
    obtain rfl := Except.ok.inj hnames
    exact ⟨.here, h⟩
  | cons name names ih =>
    rw [descend] at hnames
    split at hnames
    · rename_i hidle
      obtain ⟨hleads, hfollows⟩ := ih h hnames
      exact ⟨.idle hidle hleads, hfollows⟩
    rename_i hidle
    split at hnames
    · rename_i hup
      subst hup
      obtain ⟨hleads, hfollows⟩ := ih h.tail hnames
      rw [path_tail] at hleads
      exact ⟨.up hleads, hfollows⟩
    rename_i hup
    split at hnames
    · rename_i entries hentry
      obtain ⟨hname, hnode⟩ := node?_of_entry h hentry
      obtain ⟨hleads, hfollows⟩ := ih (h.cons hentry) hnames
      rw [path_cons] at hleads
      exact ⟨.down (by simpa using hidle) hup hname ⟨_, hnode, entries, rfl⟩ hleads, hfollows⟩
    all_goals cases hnames

/-- A trail is descended where names lead. -/
theorem descend_of_leads {t : FileTree} {path names path' : List String}
    (h : t.Leads path names path') {trail : Trail} (htrail : t.Follows trail)
    (hpath : trail.path = path) :
    ∃ trail', t.descend trail names = .ok trail' ∧ t.Follows trail' ∧ trail'.path = path' := by
  induction h generalizing trail with
  | here => exact ⟨trail, rfl, htrail, hpath⟩
  | idle hidle _ ih =>
    rw [descend, if_pos hidle]
    exact ih htrail hpath
  | up _ ih =>
    rw [descend, if_neg (by decide), if_pos rfl]
    exact ih htrail.tail (by rw [path_tail, hpath])
  | down hidle hup hname hdirectory _ ih =>
    obtain ⟨_, hnode, entries, rfl⟩ := hdirectory
    rw [descend, if_neg (by simp [hidle]), if_neg hup]
    rw [← hpath] at hnode
    have hentry := entry_eq htrail hname
    have hnode' : t.node? (trail.path ++ [_]) = some (.directory entries) := hnode
    rw [hnode'] at hentry
    rw [hentry]
    exact ih (htrail.cons hentry) (by rw [path_cons, hpath])

theorem isDirectory_endOf {t : FileTree} (hroot : t.IsDirectory []) {trail : Trail}
    (h : t.Follows trail) : (t.endOf trail).IsDirectory := by
  cases trail with
  | nil =>
    obtain ⟨_, hnode, hdirectory⟩ := hroot
    obtain rfl := Option.some.inj hnode
    exact hdirectory
  | cons x trail => exact h.1

/-! ## Lemmas: names that lead -/

namespace Leads

theorem mono {t t' : FileTree} (hmono : ∀ p, t.IsDirectory p → t'.IsDirectory p)
    {path names path' : List String} (h : t.Leads path names path') :
    t'.Leads path names path' := by
  induction h with
  | here => exact .here
  | idle hidle _ ih => exact .idle hidle ih
  | up _ ih => exact .up ih
  | down hidle hup hname hdirectory _ ih => exact .down hidle hup hname (hmono _ hdirectory) ih

theorem append {t : FileTree} {path names path' names' path'' : List String}
    (h : t.Leads path names path') (h' : t.Leads path' names' path'') :
    t.Leads path (names ++ names') path'' := by
  induction h with
  | here => exact h'
  | idle hidle _ ih => exact .idle hidle (ih h')
  | up _ ih => exact .up (ih h')
  | down hidle hup hname hdirectory _ ih => exact .down hidle hup hname hdirectory (ih h')

theorem of_idle {t : FileTree} {path names : List String}
    (h : ∀ name ∈ names, FilePath.isIdle name = true) : t.Leads path names path := by
  induction names with
  | nil => exact .here
  | cons name names ih =>
    exact .idle (h name List.mem_cons_self) (ih fun n hn => h n (List.mem_cons_of_mem _ hn))

theorem eq_of_idle {t : FileTree} {path names path' : List String}
    (h : t.Leads path names path') (hnames : ∀ name ∈ names, FilePath.isIdle name = true) :
    path' = path := by
  induction h with
  | here => rfl
  | idle _ _ ih => exact ih fun n hn => hnames n (List.mem_cons_of_mem _ hn)
  | up => exact absurd (hnames _ List.mem_cons_self) (by decide)
  | down hidle => exact absurd (hnames _ List.mem_cons_self) (by simp [hidle])

theorem exists_of_append {t : FileTree} {path names names' path'' : List String}
    (h : t.Leads path (names ++ names') path'') :
    ∃ path', t.Leads path names path' ∧ t.Leads path' names' path'' := by
  induction names generalizing path with
  | nil => exact ⟨path, .here, h⟩
  | cons name names ih =>
    cases h with
    | idle hidle h =>
      obtain ⟨path', hleads, hrest⟩ := ih h
      exact ⟨path', .idle hidle hleads, hrest⟩
    | up h =>
      obtain ⟨path', hleads, hrest⟩ := ih h
      exact ⟨path', .up hleads, hrest⟩
    | down hidle hup hname hdirectory h =>
      obtain ⟨path', hleads, hrest⟩ := ih h
      exact ⟨path', .down hidle hup hname hdirectory hleads, hrest⟩

theorem isDirectory {t : FileTree} {path names path' : List String}
    (h : t.Leads path names path') (hpath : t.IsDirectory path) : t.IsDirectory path' := by
  induction h with
  | here => exact hpath
  | idle _ _ ih => exact ih hpath
  | @up path _ _ _ ih =>
    refine ih ?_
    rcases List.eq_nil_or_concat' path with rfl | ⟨above, name, rfl⟩
    · exact hpath
    · rw [List.dropLast_concat]
      exact hpath.of_append
  | down _ _ _ hdirectory _ ih => exact ih hdirectory

theorem isPlain {t : FileTree} {path names path' : List String} (h : t.Leads path names path')
    (hpath : ∀ name ∈ path, FilePath.IsPlain name)
    (hnames : ∀ name ∈ names, '/' ∉ name.toList ∧ '\x00' ∉ name.toList) :
    ∀ name ∈ path', FilePath.IsPlain name := by
  induction h with
  | here => exact hpath
  | idle _ _ ih => exact ih hpath fun name hname => hnames name (List.mem_cons_of_mem _ hname)
  | up _ ih =>
    exact ih (fun name hname => hpath name (List.dropLast_subset _ hname))
      fun name hname => hnames name (List.mem_cons_of_mem _ hname)
  | @down path names path' name hidle hup hlength _ _ ih =>
    obtain ⟨hslash, hzero⟩ := hnames name List.mem_cons_self
    refine ih (fun n hn => ?_) fun name hname => hnames name (List.mem_cons_of_mem _ hname)
    rcases List.mem_append.1 hn with hn | hn
    · exact hpath n hn
    · obtain rfl := List.mem_singleton.1 hn
      exact ⟨hidle, hup, hslash, hzero, hlength⟩

/-- Plain names lead on to the directory that they name. -/
theorem of_plain {t : FileTree} {path names : List String}
    (hnames : ∀ name ∈ names, FilePath.IsPlain name) (h : t.IsDirectory (path ++ names)) :
    t.Leads path names (path ++ names) := by
  induction names generalizing path with
  | nil => rw [List.append_nil]; exact .here
  | cons name names ih =>
    obtain ⟨hidle, hup, -, -, hlength⟩ := hnames name List.mem_cons_self
    rw [List.append_cons] at h ⊢
    exact .down hidle hup hlength h.of_append
      (ih (fun n hn => hnames n (List.mem_cons_of_mem _ hn)) h)

/-- Where names lead that all lead down is told by them. -/
theorem eq_of_leadsDown {t : FileTree} {path names path' : List String}
    (h : t.Leads path names path') (hnames : ∀ name ∈ names, FilePath.LeadsDown name) :
    path' = path ++ names := by
  induction h with
  | here => rw [List.append_nil]
  | idle hidle _ _ =>
    obtain ⟨hnot, -⟩ := hnames _ List.mem_cons_self
    rw [hnot] at hidle
    cases hidle
  | up _ _ => exact absurd rfl (hnames _ List.mem_cons_self).2.1
  | down _ _ _ _ _ ih =>
    rw [ih fun n hn => hnames n (List.mem_cons_of_mem _ hn), List.append_assoc]
    rfl

end Leads

end FileTree

end RoutineParams
