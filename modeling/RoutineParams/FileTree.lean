import RoutineParams.DatabaseFile
import RoutineParams.Error
import RoutineParams.FilePath
import RoutineParams.Text.Lossy

/-!
# File trees

A tree of directories and files as a value. Paths are followed name by name from the root or from
the home directory, and every operation either answers and changes the tree or gives the fault that
stopped it.

A file holds bytes, or a database that has been opened. Bytes are text if they are valid UTF-8; the
bytes of a database that has been opened never are.

A name in a directory may be no text either. Such a name is listed with the others, but no path that
is followed has it: paths are texts.
-/

namespace RoutineParams

inductive Content where
  | bytes (data : ByteArray)
  | database (file : DatabaseFile)

def Content.size : Content → Nat
  | .bytes data => data.size
  | .database file => file.size

def Content.toBytes : Content → ByteArray
  | .bytes data => data
  | .database file => file.image.toBytes

def Content.text? : Content → Option String
  | .bytes data => String.fromUTF8? data
  | .database _ => none

/-- A name in a directory: a text, or bytes that are none. -/
inductive FileName where
  | text (name : String)
  | bytes (data : ByteArray) (isNoText : String.fromUTF8? data = none)

namespace FileName

instance : DecidableEq FileName
  | text a, text b => decidable_of_iff (a = b) (by simp)
  | bytes a _, bytes b _ => decidable_of_iff (a.data = b.data) (by simp [ByteArray.ext_iff])
  | text _, bytes .. | bytes .., text _ => .isFalse nofun

instance : Coe String FileName := ⟨.text⟩

/-- The text that shows a name. -/
def shown : FileName → String
  | text name => name
  | bytes data _ => String.ofList (textOfBytes data.toList)

def text? : FileName → Option String
  | text name => some name
  | bytes _ _ => none

end FileName

/-- What lies at a path. A directory has entries of different names, in the order in which the file
system lists them. -/
inductive Node where
  | directory (entries : List (FileName × Node))
  | file (content : Content)

/-- What lies at the root, and the path of the home directory. -/
structure FileTree where
  root : Node
  home : List String

namespace Node

/-- The entries of a directory. A file has none. -/
def entries : Node → List (FileName × Node)
  | directory entries => entries
  | file _ => []

def at? (n : Node) : List String → Option Node
  | [] => some n
  | name :: names =>
    match n.entries.lookup (.text name) with
    | some below => below.at? names
    | none => none

/-- Puts a node in place of that of the entry with a name. -/
def replaceEntry (name : FileName) (n : Node) : List (FileName × Node) → List (FileName × Node)
  | [] => []
  | e :: es => if e.1 = name then (name, n) :: es else e :: replaceEntry name n es

/-- Sets what a directory has under a name. A new entry is listed before the others. -/
def setEntry (name : FileName) (n : Node) (entries : List (FileName × Node)) :
    List (FileName × Node) :=
  if (entries.lookup name).isSome then replaceEntry name n entries else (name, n) :: entries

/-- Puts a node at a path, in place of the one that is there. -/
def put (n new : Node) : List String → Node
  | [] => new
  | name :: names =>
    let below := (n.entries.lookup (.text name)).getD (directory [])
    directory (setEntry name (below.put new names) n.entries)

def erase (n : Node) : List String → Node
  | [] => n
  | [name] => directory (n.entries.filter fun e => e.1 != name)
  | name :: names =>
    match n.entries.lookup (.text name) with
    | some below => directory (setEntry name (below.erase names) n.entries)
    | none => n

mutual

/-- All that lies below a node, with the paths to it. -/
def descendants : Node → List (List FileName × Node)
  | directory entries => entryDescendants entries
  | file _ => []

/-- Some entries and all that lies below them, with the paths to it. -/
def entryDescendants : List (FileName × Node) → List (List FileName × Node)
  | [] => []
  | (name, n) :: es =>
    ([name], n) :: n.descendants.map (fun x => (name :: x.1, x.2)) ++ entryDescendants es

end

end Node

/-- The directories on the way from the root to one of them, the last one first, with their
names. -/
abbrev Trail := List (String × Node)

def Trail.path (trail : Trail) : List String := (trail.map (·.1)).reverse

/-- What a path names: an entry of a directory, which may be there or not, or the directory itself
where the path ends in dots or at the root. -/
structure Target where
  trail : Trail
  name : Option String
  /-- Whether a slash follows the name, which asks for a directory. -/
  slash : Bool

/-- What changes a file tree and gives an answer, or the fault that stopped it. What was changed
before the fault stays. -/
abbrev FileChange (α : Type) := ExceptT FileFault (StateM FileTree) α

namespace FileTree

/-! ## Paths -/

/-- The length of a name in bytes up to which a directory can hold it. -/
def maxNameLength : Nat := 255

/-- The length of a path in bytes up to which it is followed. -/
def maxPathLength : Nat := 4095

def node? (t : FileTree) (path : List String) : Option Node := t.root.at? path

def content? (t : FileTree) (path : List String) : Option Content :=
  match t.node? path with
  | some (.file content) => some content
  | _ => none

/-- What lies at the end of a trail. -/
def endOf (t : FileTree) : Trail → Node
  | [] => t.root
  | (_, n) :: _ => n

def entry (t : FileTree) (trail : Trail) (name : String) : Except FileFault (Option Node) :=
  if maxNameLength < name.utf8ByteSize then .error .nameTooLong
  else .ok ((t.endOf trail).entries.lookup (.text name))

/-- The trail to which names lead from a trail on. -/
def descend (t : FileTree) (trail : Trail) : List String → Except FileFault Trail
  | [] => .ok trail
  | name :: names =>
    if FilePath.isIdle name then t.descend trail names
    else if name = ".." then t.descend trail.tail names
    else
      match t.entry trail name with
      | .ok (some (.directory entries)) => t.descend ((name, .directory entries) :: trail) names
      | .ok (some (.file _)) => .error .notDirectory
      | .ok none => .error .notFound
      | .error f => .error f

/-- The path of the directory that a path starts from. -/
def start (t : FileTree) (path : String) : List String :=
  if FilePath.isAbsolute path then [] else t.home

/-- What a path names. The way to it is followed; it need not be there itself. -/
def target (t : FileTree) (path : String) : Except FileFault Target :=
  let names := FilePath.names path
  if path.toList.contains '\x00' then .error .zeroByte
  else if maxPathLength < path.utf8ByteSize then .error .nameTooLong
  else if path.isEmpty then .error .notFound
  else do
    let start ← t.descend [] (t.start path)
    match names.reverse.dropWhile (· == "") with
    | [] => .ok ⟨[], none, true⟩
    | last :: above =>
      if last = "." ∨ last = ".." then .ok ⟨← t.descend start names, none, true⟩
      else .ok ⟨← t.descend start above.reverse, some last, names.getLast? == some ""⟩

/-- What lies at a path, and its path from the root. -/
def find (t : FileTree) (path : String) : Except FileFault (List String × Node) := do
  let g ← t.target path
  match g.name with
  | none => .ok (g.trail.path, t.endOf g.trail)
  | some name =>
    match ← t.entry g.trail name with
    | none => .error .notFound
    | some (.directory entries) => .ok (g.trail.path ++ [name], .directory entries)
    | some (.file content) =>
      if g.slash then .error .notDirectory else .ok (g.trail.path ++ [name], .file content)

def hasNode (t : FileTree) (path : String) : Bool := (t.find path).toBool

/-- The path from the root of the directory that a path leads to. -/
def directory? (t : FileTree) (path : String) : Option (List String) :=
  match t.find path with
  | .ok (path, .directory _) => some path
  | _ => none

def hasFile (t : FileTree) (path : String) : Bool :=
  match t.find path with
  | .ok (_, .file _) => true
  | _ => false

/-- The files below a directory, with their names from there, as walking down lists them. -/
def filesBelow (t : FileTree) (directory : List String) : List (List FileName × Content) :=
  match t.node? directory with
  | none => []
  | some n => n.descendants.filterMap fun (path, node) =>
    match node with
    | .file content => some (path, content)
    | .directory _ => none

/-! ## Reading and writing -/

/-- Puts a node at a path, in place of the one that is there. -/
def put (t : FileTree) (path : List String) (node : Node) : FileTree :=
  { t with root := t.root.put node path }

def read (t : FileTree) (path : String) : Except FileFault String := do
  match ← t.find path with
  | (_, .directory _) => .error .isDirectory
  | (_, .file content) =>
    match content.text? with
    | some text => .ok text
    | none => .error .notText

/-- The path from the root of the file that a path names, which may still have to be made, and what
it holds. -/
def fileToWrite (t : FileTree) (path : String) :
    Except FileFault (List String × Option Content) := do
  match ← t.target path with
  | ⟨_, none, _⟩ | ⟨_, _, true⟩ => .error .isDirectory
  | ⟨trail, some name, false⟩ =>
    match ← t.entry trail name with
    | some (.directory _) => .error .isDirectory
    | some (.file content) => .ok (trail.path ++ [name], some content)
    | none => .ok (trail.path ++ [name], none)

def erase (t : FileTree) (path : List String) : FileTree :=
  { t with root := t.root.erase path }

end FileTree

namespace FileChange

/-- A change that happens as a whole or not at all. -/
def ofTree (f : FileTree → Except FileFault FileTree) : FileChange Unit := do
  match f (← get) with
  | .ok t => set t
  | .error fault => throw fault

def write (path : String) (data : ByteArray) : FileChange Unit :=
  ofTree fun t => do
    let (path, _) ← t.fileToWrite path
    .ok (t.put path (.file (.bytes data)))

/-- Makes a file without content, unless there is one. -/
def touch (path : String) : FileChange Unit :=
  ofTree fun t => do
    match ← t.fileToWrite path with
    | (_, some _) => .ok t
    | (path, none) => .ok (t.put path (.file (.bytes .empty)))

def remove (path : String) : FileChange Unit :=
  ofTree fun t => do
    match ← t.find path with
    | (_, .directory _) => .error .isDirectory
    | (path, .file _) => .ok (t.erase path)

/-- Makes a directory, unless there is one. -/
def makeDirectory (path : String) : FileChange Unit :=
  ofTree fun t => do
    match ← t.target path with
    | ⟨_, none, _⟩ => .ok t
    | ⟨trail, some name, _⟩ =>
      match ← t.entry trail name with
      | some (.directory _) => .ok t
      | some (.file _) => .error .alreadyExists
      | none => .ok (t.put (trail.path ++ [name]) (.directory []))

/-- Makes a directory. If the way to it is not there, those `above` it are made first, the nearest
of them in the same manner. -/
def makeBelow (path : String) : (above : List String) → FileChange Unit
  | [] => makeDirectory path
  | parent :: above =>
    tryCatch (makeDirectory path) fun fault => do
      if fault = .notFound then
        makeBelow parent above
        makeDirectory path
      else throw fault

/-- Makes a directory and those above it, as far as they are not there. -/
def makeDirectories (path : String) : FileChange Unit :=
  if path.isEmpty then pure () else makeBelow path (FilePath.ancestors path)

/-- Writes a file and makes the directories above it. -/
def save (path : String) (data : ByteArray) : FileChange Unit := do
  makeDirectories ((FilePath.parent? path).getD "")
  write path data

end FileChange

end RoutineParams
