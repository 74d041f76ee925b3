import RoutineParams.Proofs.FitFiles
import RoutineParams.Proofs.Preparations

/-!
# What database files hold

A database file holds what is found in it when it is opened: its pages, without the change that the
journal beside it takes back, and with those in the log, and the tables that they lack. A file that
is not there holds what an empty one does, and whether changes are logged is no part of it. While a database is used files come and go in its
directory, under its name and those of the files beside it; what all other files hold stays.

    markLogged content holds what content does                               (held?_markLogged)
    Touches dir last t t' → t'.held? path = t.held? path, for files elsewhere   (Touches.held?)
-/

namespace RoutineParams

open Storage (Fault Image)

/-! ## Definitions -/

/-- The file, if it says that changes are logged, or that they are not. -/
def DatabaseFile.marked (file : DatabaseFile) (logged : Bool) : DatabaseFile :=
  { file with image := file.image.marked logged }

namespace Content

/-- The content of a file with the changes in the log beside it. A file without pages has none. -/
def withLog (content : Content) (log : Option Content) : Content :=
  match content, log with
  | .bytes data, some (.bytes log) =>
    if Storage.isBlankFile data then .bytes data else .bytes (Storage.Log.apply log data)
  | content, _ => content

/-- The database that is found when a file with the content is opened, if it can be. -/
def held? (content : Content) : Option DatabaseFile :=
  match Opening.find content with
  | .ok (.ready file) => some (file.marked false)
  | .ok (.pages im _) =>
    match outcome (Image.prepare (.ok ⟨⟩)) (im.marked false) with
    | (.ok _, prepared) => some (.ofImage prepared)
    | (.error _, _) => none
  | .error _ => none

end Content

namespace FileTree

/-- What the content of the file at a path comes to, with its journal and its log. -/
def settle (t : FileTree) (path : List String) (content : Content) : Content :=
  (content.withJournal (t.content? (Companion.journal.path path))).withLog
    (t.content? (Companion.log.path path))

/-- The database that the file at a path holds, if it can be opened. -/
def held? (t : FileTree) (path : List String) : Option DatabaseFile :=
  (t.settle path ((t.content? path).getD (.bytes .empty))).held?

end FileTree

/-- The name of a file or of one beside it. -/
def IsOwn (last name : String) : Prop := name = last ∨ ∃ c : Companion, name = last ++ c.suffix

/-- In the directory `dir` the file `last` and those beside it are written or taken away, where
there is no directory. -/
inductive Touches (dir : List String) (last : String) (t : FileTree) : FileTree → Prop
  | refl : Touches dir last t t
  | put {t' : FileTree} {name : String} (content : Content) : Touches dir last t t' →
      IsOwn last name → ¬t'.IsDirectory (dir ++ [name]) →
      Touches dir last t (t'.put (dir ++ [name]) (.file content))
  | erase {t' : FileTree} {name : String} : Touches dir last t t' → IsOwn last name →
      ¬t'.IsDirectory (dir ++ [name]) → Touches dir last t (t'.erase (dir ++ [name]))

variable {content : Content} {log : Option Content} {file : DatabaseFile} {t t' : FileTree}
  {dir path : List String} {last name : String}

/-! ## Lemmas: contents -/

/-- A journal starts with its mark. -/
theorem Storage.Journal.format?_of_head {size : Nat} {journal : ByteArray}
    (h : journal[0]? ≠ mark.head?) : format? size journal = none := by
  have hmark : hasMark journal 0 = false := by
    rw [hasMark, beq_eq_false_iff_ne]
    intro hmark
    refine h ?_
    rw [← hmark, toList_eq, getElem?_toList, ByteArray.data_extract, Array.toList_extract,
      List.extract_eq_take_drop, List.drop_zero, List.head?_take, if_neg (by decide),
      List.head?_eq_getElem?]
  simp [format?, hmark]

namespace DatabaseFile

@[simp] theorem marked_marked (file : DatabaseFile) (logged logged' : Bool) :
    (file.marked logged').marked logged = file.marked logged := rfl

end DatabaseFile

namespace Opening

/-- What is found in bytes that are no blank file, whose version is known. -/
theorem find_bytes {data : ByteArray} {h : Storage.Header} (hblank : Storage.isBlankFile data = false)
    (hknown : Storage.Header.isKnown data = true) (hread : Storage.Header.read data = .ok h) :
    find (.bytes data) =
      (Image.ofBytes data h).map fun im => .pages im (Storage.Header.isFrozen data) := by
  simp only [find, hblank, hknown, hread, bind, Except.bind]
  cases Image.ofBytes data h <;> rfl

theorem of_find_bytes {data : ByteArray} {found : Found} (hblank : Storage.isBlankFile data = false)
    (hfind : find (.bytes data) = .ok found) :
    Storage.Header.isKnown data = true ∧ ∃ h im, Storage.Header.read data = .ok h ∧
      Image.ofBytes data h = .ok im ∧ found = .pages im (Storage.Header.isFrozen data) := by
  cases hknown : Storage.Header.isKnown data with
  | false =>
    simp only [find, hblank, hknown] at hfind
    cases hfind
  | true =>
    cases hread : Storage.Header.read data with
    | error fault =>
      simp only [find, hblank, hknown, hread] at hfind
      cases hfind
    | ok h =>
      rw [find_bytes hblank hknown hread] at hfind
      cases him : Image.ofBytes data h with
      | error fault =>
        rw [him] at hfind
        cases hfind
      | ok im =>
        rw [him] at hfind
        exact ⟨rfl, h, im, rfl, him, (Except.ok.inj hfind).symm⟩

end Opening

namespace Content

/-- The changes in a log are there once they were made. -/
@[simp] theorem withLog_withLog (content : Content) (log : Option Content) :
    (content.withLog log).withLog log = content.withLog log := by
  cases content with
  | database file => rfl
  | bytes data =>
    rcases log with _ | (log | file)
    · rfl
    · cases hblank : Storage.isBlankFile data <;>
        simp [withLog, hblank, Storage.Log.apply_apply]
    · rfl

@[simp] theorem withLog_none (content : Content) : content.withLog none = content := by
  cases content <;> rfl

@[simp] theorem withLog_database (file : DatabaseFile) (log : Option Content) :
    (database file).withLog log = database file := rfl

theorem withLog_of_database (content : Content) (file : DatabaseFile) :
    content.withLog (some (database file)) = content := by
  cases content <;> rfl

theorem withLog_of_isBlank (h : content.isBlank = true) (log : Option Content) :
    content.withLog log = content := by
  cases content with
  | database file => rfl
  | bytes data =>
    rcases log with _ | (log | file)
    · rfl
    · exact if_pos h
    · exact withLog_of_database _ file

@[simp] theorem withJournal_none (content : Content) : content.withJournal none = content := rfl

theorem withJournal_of_isBlank (h : content.isBlank = true) (journal : Option Content) :
    content.withJournal journal = content := by
  rcases journal with _ | (data | file)
  · rfl
  · exact if_pos (Or.inl h)
  · rfl

/-- A journal that does not start as one says nothing. -/
theorem withJournal_of_head {journal : Content}
    (h : journal.toBytes[0]? ≠ Storage.Journal.mark.head?) (content : Content) :
    content.withJournal (some journal) = content := by
  cases journal with
  | database file => rfl
  | bytes data =>
    have hnone : Storage.Journal.format? content.pageSize data = none :=
      Storage.Journal.format?_of_head h
    exact if_pos (Or.inr (by rw [hnone]; rfl))

/-- A log without content has no changes. -/
theorem withLog_of_short {data : ByteArray} (h : data.size < Storage.Log.headerLength)
    (content : Content) : content.withLog (some (.bytes data)) = content := by
  cases content with
  | database file => rfl
  | bytes data' => simp [withLog, Storage.Log.apply_of_short h]

@[simp] theorem held?_database (file : DatabaseFile) :
    (database file).held? = some (file.marked false) := rfl

/-- What was found among pages tells what they hold. -/
theorem held?_of_pages {im : Image} {isFrozen : Bool}
    (h : Opening.find content = .ok (.pages im isFrozen)) :
    content.held? = match outcome (Image.prepare (.ok ⟨⟩)) (im.marked false) with
      | (.ok _, prepared) => some (.ofImage prepared)
      | (.error _, _) => none := by
  rw [held?, h]

/-- Pages that differ in their mark hold the same. -/
theorem held?_congr_marked {content' : Content} {im : Image} {logged isFrozen isFrozen' : Bool}
    (h : Opening.find content = .ok (.pages im isFrozen))
    (h' : Opening.find content' = .ok (.pages (im.marked logged) isFrozen')) :
    content'.held? = content.held? := by
  rw [held?_of_pages h, held?_of_pages h', Image.marked_marked]

/-- **A file that is said to be logged** holds what it did. -/
theorem held?_markLogged {found : Opening.Found} (h : Opening.find content = .ok found) :
    (Opening.markLogged content).held? = content.held? := by
  cases content with
  | database file => rfl
  | bytes data =>
    cases hblank : Storage.isBlankFile data with
    | true =>
      obtain ⟨hnot, hknown, -, hread, hbytes⟩ := Storage.ofBytes_fresh
      have hfind : Opening.find (.bytes data) = .ok (.pages (.fresh false) false) := by
        simp [Opening.find, hblank]
      have hfind' := Opening.find_bytes hnot hknown hread
      rw [hbytes] at hfind'
      simp only [Opening.markLogged, hblank, if_true]
      exact @held?_congr_marked _ _ _ true _ _ hfind hfind'
    | false =>
      obtain ⟨hknown, header, im, hread, him, rfl⟩ := Opening.of_find_bytes hblank h
      obtain ⟨hsize, hcount⟩ := Storage.size_of_ofBytes him
      have hsize := Nat.le_of_lt hsize
      have hblank' : Storage.isBlankFile (Storage.Header.markLogged data header) = false := by
        rw [Storage.isBlankFile, (Storage.Header.markLogged_spec hsize header).1]
        exact hblank
      have hfind' := Opening.find_bytes hblank' (Storage.Header.isKnown_markLogged hsize _ hknown).1
        (Storage.Header.read_markLogged hsize hread hcount)
      rw [Storage.ofBytes_markLogged hsize header hknown, him] at hfind'
      simp only [Opening.markLogged, hblank, hread]
      exact @held?_congr_marked _ _ _ true _ _ h hfind'

end Content

/-! ## Lemmas: trees -/

namespace FileTree

theorem content?_of_isDirectory (h : t.IsDirectory path) : t.content? path = none := by
  obtain ⟨_, hnode, entries, rfl⟩ := h
  rw [content?, show t.node? path = _ from hnode]

/-- Where no directory is, there is nothing below. -/
theorem content?_append (h : ¬t.IsDirectory path) {names : List String} (hne : names ≠ []) :
    t.content? (path ++ names) = none := by
  obtain ⟨name, names, rfl⟩ := List.exists_cons_of_ne_nil hne
  have hnone : t.node? (path ++ name :: names) = none := by
    rw [node?, Node.at?_append]
    cases hnode : t.root.at? path with
    | none => rfl
    | some n =>
      rw [Option.bind_some, Node.at?_cons]
      cases hlookup : n.entries.lookup (.text name) with
      | none => rfl
      | some below => exact absurd ⟨n, hnode, Node.isDirectory_of_lookup hlookup⟩ h
  rw [content?, hnone]

theorem content?_congr (h : t'.node? path = t.node? path) : t'.content? path = t.content? path := by
  rw [content?, content?, h]

theorem content?_put_self (t : FileTree) (path : List String) (content : Content) :
    (t.put path (.file content)).content? path = some content := by
  rw [content?, node?_put_self]

/-- A change of one place in a directory is not seen in files elsewhere. -/
theorem content?_of_parts (hdirectory : ∀ q, t.IsDirectory q → t'.IsDirectory q)
    (hparts : ∀ q, ¬path <+: q → ¬q <+: path → t'.node? q = t.node? q)
    (hdir : t.IsDirectory path.dropLast) (hpath : ¬t.IsDirectory path)
    (hpath' : ¬t'.IsDirectory path) {q : List String} (hq : q ≠ path) :
    t'.content? q = t.content? q := by
  by_cases hbelow : path <+: q
  · obtain ⟨names, rfl⟩ := hbelow
    have hne : names ≠ [] := fun hnil => hq (by rw [hnil, List.append_nil])
    rw [content?_append hpath hne, content?_append hpath' hne]
  by_cases habove : q <+: path
  · obtain ⟨names, rfl⟩ := habove
    have hne : names ≠ [] := fun hnil => hq (by rw [hnil, List.append_nil])
    rw [List.dropLast_append_of_ne_nil hne] at hdir
    have hq : t.IsDirectory q := hdir.of_append
    rw [content?_of_isDirectory hq, content?_of_isDirectory (hdirectory q hq)]
  · exact content?_congr (hparts q hbelow habove)

theorem content?_put_of_ne (hdir : t.IsDirectory dir) (hnot : ¬t.IsDirectory (dir ++ [name]))
    (hpath : path ≠ dir ++ [name]) (content : Content) :
    (t.put (dir ++ [name]) (.file content)).content? path = t.content? path := by
  refine content?_of_parts ?_ ?_ (by rwa [List.dropLast_concat]) hnot ?_ hpath
  · exact fun _ hq => Node.isDirectoryAt_put_of_not hnot hq _
  · exact fun _ h h' => Node.at?_put_of_parts h h' _ _
  · exact not_isDirectory_of_file (node?_put_self _ _ _)

theorem content?_erase_of_ne (hdir : t.IsDirectory dir) (hnot : ¬t.IsDirectory (dir ++ [name]))
    (hpath : path ≠ dir ++ [name]) :
    (t.erase (dir ++ [name])).content? path = t.content? path := by
  refine content?_of_parts ?_ ?_ (by rwa [List.dropLast_concat]) hnot ?_ hpath
  · exact fun _ hq => Node.isDirectoryAt_erase_of_not hnot hq
  · exact fun _ h h' => Node.at?_erase_of_parts h h' _
  · exact not_isDirectory_of_none (node?_erase_self _ _ _)

theorem settle_of_isBlank (h : content.isBlank = true) (t : FileTree) (path : List String) :
    t.settle path content = content := by
  rw [settle, Content.withJournal_of_isBlank h, Content.withLog_of_isBlank h]

/-- What a file holds depends on it, and on the journal and the log beside it. -/
theorem held?_congr (h : t'.content? path = t.content? path)
    (hbeside : ∀ c : Companion, c ≠ .logIndex →
      t'.content? (c.path path) = t.content? (c.path path)) : t'.held? path = t.held? path := by
  rw [held?, held?, settle, settle, h, hbeside .journal (by simp), hbeside .log (by simp)]

end FileTree

/-! ## Lemmas: files that come and go -/

/-- Files of one name beside two files are beside the same. -/
theorem Companion.eq_of_append_suffix {other : String} {c c' : Companion}
    (h : other ++ c.suffix = last ++ c'.suffix) : other = last := by
  have hlist := congrArg (List.reverse ∘ String.toList) h
  by_cases hc : c = c'
  · subst hc
    exact String.toList_inj.1 (by simpa using hlist)
  · cases c <;> cases c' <;> first | exact absurd rfl hc | simp [Companion.suffix] at hlist

theorem Companion.isOwn_append (c : Companion) (last : String) : IsOwn last (last ++ c.suffix) :=
  Or.inr ⟨c, rfl⟩

namespace Touches

variable {t'' : FileTree}

theorem trans (h : Touches dir last t t') (h' : Touches dir last t' t'') :
    Touches dir last t t'' := by
  induction h' with
  | refl => exact h
  | put content _ hown hnot ih => exact .put content ih hown hnot
  | erase _ hown hnot ih => exact .erase ih hown hnot

theorem of_alters {canLog : Bool} (h : Alters canLog dir last t t')
    (hlast : ¬t.IsDirectory (dir ++ [last])) : Touches dir last t t' := by
  induction h with
  | refl => exact .refl
  | write content h ih => exact .put content ih (Or.inl rfl) (h.not_isDirectory hlast)
  | makeLog content _ _ hnot ih => exact .put content ih (Companion.isOwn_append _ _) hnot
  | erase c _ hnot ih => exact .erase ih (c.isOwn_append last) hnot

theorem home (h : Touches dir last t t') : t'.home = t.home := by
  induction h with
  | refl => rfl
  | put _ _ _ _ ih => exact ih
  | erase _ _ _ ih => exact ih

/-- All directories stay. -/
theorem isDirectory (h : Touches dir last t t') (hpath : t.IsDirectory path) :
    t'.IsDirectory path := by
  induction h with
  | refl => exact hpath
  | put content _ _ hnot ih => exact Node.isDirectoryAt_put_of_not hnot ih _
  | erase _ _ hnot ih => exact Node.isDirectoryAt_erase_of_not hnot ih

/-- No directory is made in the directory. -/
theorem not_isDirectory (h : Touches dir last t t') (hnot : ¬t.IsDirectory (dir ++ [name])) :
    ¬t'.IsDirectory (dir ++ [name]) := by
  induction h with
  | refl => exact hnot
  | put content _ _ _ ih => exact FileTree.not_isDirectory_put _ content ih
  | erase _ _ _ ih => exact FileTree.not_isDirectory_erase _ ih

/-- The content of all other files stays. -/
theorem content? (h : Touches dir last t t') (hdir : t.IsDirectory dir)
    (hpath : ∀ name, IsOwn last name → path ≠ dir ++ [name]) :
    t'.content? path = t.content? path := by
  induction h with
  | refl => rfl
  | put content h hown hnot ih =>
    exact (FileTree.content?_put_of_ne (h.isDirectory hdir) hnot (hpath _ hown) content).trans ih
  | erase h hown hnot ih =>
    exact (FileTree.content?_erase_of_ne (h.isDirectory hdir) hnot (hpath _ hown)).trans ih

/-- **What all other files hold stays**, if the file is neither the journal nor the log of theirs. -/
theorem held? (h : Touches dir last t t') (hdir : t.IsDirectory dir)
    (hpath : path ≠ dir ++ [last]) (hbeside : ∀ c : Companion, path ≠ c.path (dir ++ [last]))
    (hbeside' : ∀ c : Companion, c ≠ .logIndex → c.path path ≠ dir ++ [last]) :
    t'.held? path = t.held? path := by
  have hsame : t'.content? path = t.content? path := by
    refine h.content? hdir ?_
    rintro name (rfl | ⟨c, rfl⟩)
    · exact hpath
    · exact Companion.path_append c dir last ▸ hbeside c
  rcases List.eq_nil_or_concat' path with rfl | ⟨above, name, rfl⟩
  · -- at the root there is no file
    have hroot : t.IsDirectory [] := Node.IsDirectoryAt.of_append (p := []) hdir
    rw [FileTree.held?, FileTree.held?, FileTree.content?_of_isDirectory hroot,
      FileTree.content?_of_isDirectory (h.isDirectory hroot), Option.getD_none,
      FileTree.settle_of_isBlank rfl, FileTree.settle_of_isBlank rfl]
  refine FileTree.held?_congr hsame fun c hc => h.content? hdir ?_
  rintro other (rfl | ⟨c', rfl⟩)
  · exact hbeside' c hc
  rw [Companion.path_append]
  intro heq
  obtain ⟨rfl, hname⟩ := List.append_inj' heq rfl
  exact hpath (by rw [Companion.eq_of_append_suffix (List.singleton_inj.1 hname)])

end Touches

end RoutineParams
