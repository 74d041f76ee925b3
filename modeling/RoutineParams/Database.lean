import RoutineParams.Action
import RoutineParams.DatabaseAccess

/-!
# Databases

A database is opened by its name. A name with a path leads from name to name, where two dots lead
up whether or not there is something before them; what it leads to is made unless it is there or the
name says otherwise.
-/

namespace RoutineParams

/-- A database that is open: the name it was opened by, the path of its file from the root, if it
has one, and what it holds. -/
structure Database where
  name : String
  path : Option (List String)
  file : DatabaseFile
  canWrite : Bool
  /-- Whether a log is in use that cannot be emptied. -/
  isStuck : Bool

namespace Database

/-! ## Paths -/

/-- The length of the path of a database file in bytes, with the longest name beside it, up to which
it can be opened. -/
def maxPathLength : Nat := 512

def pathText (path : List String) : String := "/" ++ FilePath.join path

/-- The path from the root to which names lead from a path on. What is not there is no hindrance,
but a file on the way is one. -/
def resolve (t : FileTree) (path : List String) : List String → Option (List String)
  | [] => some path
  | name :: names =>
    if FilePath.isIdle name then resolve t path names
    else if name = ".." then resolve t path.dropLast names
    else
      let text := pathText (path ++ [name])
      if maxPathLength ≤ text.utf8ByteSize then none
      else
        match t.find text with
        | .ok _ | .error .notFound => resolve t (path ++ [name]) names
        | .error _ => none

/-- The path from the root of the file of a database. -/
def location? (t : FileTree) (path : String) : Option (List String) := do
  let location ← resolve t (t.start path) (FilePath.names path)
  let longest := (pathText location).utf8ByteSize + Companion.journal.suffix.utf8ByteSize
  if location = [] ∨ maxPathLength < longest then none else some location

/-! ## Opening -/

/-- What the file at a path holds. It is made if the mode says so. -/
def locate (mode : AccessMode) (location : List String) (t : FileTree) :
    Except NameFault (Content × FileTree) :=
  let text := pathText location
  match mode, t.find text with
  | _, .ok (_, .file content) => .ok (content, t)
  | .readOnly, .ok (_, .directory _) => .error .cannotRead
  | .create, .error .notFound =>
    match t.fileToWrite text with
    | .ok _ => .ok (.bytes .empty, t.put location (.file (.bytes .empty)))
    | .error _ => .error .cannotOpen
  | _, _ => .error .cannotOpen

def onFiles {α : Type} (o : Opening α) : Action α := do
  let (result, t) := (ExceptT.run o).run (← get).files
  Action.modifyFiles fun _ => t
  match result with
  | .ok a => pure a
  | .error fault => throw (.database fault)

def openFile (name path : String) (request : DatabaseRequest) : Action Database := do
  let t := (← get).files
  match location? t path with
  | none => throw (.unopened name .cannotOpen)
  | some location =>
    if request.permissionsOf.any (!t.hasNode ·) then throw (.unopened name .cannotRead)
    match locate request.mode location t with
    | .error fault => throw (.unopened name fault)
    | .ok (content, t) =>
      let access := ⟨request.mode ≠ .readOnly, request.isFixed, request.canLog⟩
      Action.modifyFiles fun _ => t
      let c ← onFiles (Opening.openContent access location content)
      pure ⟨name, some location, c.file, c.canWrite, c.isStuck⟩

/-- What a database without a file holds at first. -/
def blank : DatabaseFile := ⟨some .empty, Storage.Image.prepared⟩

/-- Opens a database in a mode unless its name tells another one. -/
def openIn (mode : AccessMode) (name : String) : Action Database := do
  match DatabaseRequest.ofName mode name with
  | .error fault => throw (.unopened name fault)
  | .ok request =>
    match request.path with
    | some path => openFile name path request
    | none =>
      if request.mode = .readOnly then throw (.database .readOnly)
      else pure ⟨name, none, blank, true, false⟩

/-- Opens a database, whose file is made unless it is there. -/
def connect (name : String) : Action Database := openIn .create name

/-- Opens a database whose file is there. -/
def connectExisting (name : String) : Action Database := do
  if (← get).files.hasFile name then openIn .existing name
  else throw (.sourceNotFound name)

/-! ## Questions and changes -/

def answer {α : Type} (a : Except Storage.Fault α) : Action α :=
  match a with
  | .ok a => pure a
  | .error fault => throw (.database fault)

/-- The routines stored for a name that may have parameters, in the order of their numbers. -/
def routinesOf (d : Database) (name : String) : Action (List Routine) :=
  answer (d.file.routinesOf name)

/-- The parameters stored for a name, in the order of their numbers and names. -/
def parametersOf (d : Database) (name : String) : Action (List StoredParameter) :=
  answer (d.file.parametersOf name)

def stats (d : Database) : Action StoreStats := answer d.file.stats

def update (d : Database) (c : StoreChange) : Action Database :=
  if c.isNothing then pure d
  else if d.canWrite then do
    let file ← answer (d.file.apply c)
    match d.path with
    | some path => onFiles (Opening.write path file)
    | none => pure ()
    pure { d with file }
  else throw (.database .readOnly)

def emptyLog (d : Database) : Action Unit :=
  if d.isStuck then throw (.database .readOnly) else pure ()

end Database

end RoutineParams
