import RoutineParams.FileTree
import RoutineParams.Storage.Journal
import RoutineParams.Storage.Log

/-!
# Access to database files

A database file is changed with the help of files beside it, whose names are longer than its own: a
journal, from which a change that was left half done is taken back; and a log, to which changes are
written first, with an index of its own. They are gone when the database is closed, unless it was
opened only to be read. What lies in their way makes the file unfit.

    openContent a path content        opens the file at `path`, which holds `content`
-/

namespace RoutineParams

open Storage (Fault Header Image)

/-- How a file is used. -/
structure Access where
  canWrite : Bool
  /-- Whether nobody changes the file. -/
  isFixed : Bool
  /-- Whether changes can be written to a log first. -/
  canLog : Bool
deriving DecidableEq, Repr

/-- The files beside a database file. -/
inductive Companion where
  | journal
  | log
  | logIndex
deriving DecidableEq, Repr

/-- What follows the name of a database file in that of a file beside it. -/
def Companion.suffix : Companion → String
  | journal => "-journal"
  | log => "-wal"
  | logIndex => "-shm"

def Companion.path (c : Companion) (path : List String) : List String :=
  path.dropLast ++ [path.getLast?.getD "" ++ c.suffix]

/-- What lies beside a database file. A blank file is as good as none. -/
inductive Beside where
  | nothing
  | file (first : UInt8)
  | directory
deriving DecidableEq, Repr

/-- What opens a database file, or gives the fault that stopped it. -/
abbrev Opening (α : Type) := ExceptT Fault (StateM FileTree) α

namespace FileTree

/-- What lies beside the file at a path. -/
def beside (t : FileTree) (path : List String) (c : Companion) : Beside :=
  match t.node? (c.path path) with
  | none => .nothing
  | some (.directory _) => .directory
  | some (.file content) => (content.toBytes[0]?).elim .nothing .file

def eraseBeside (t : FileTree) (path : List String) (c : Companion) : FileTree :=
  if t.beside path c = .directory then t else t.erase (c.path path)

def canMakeBeside (t : FileTree) (path : List String) (c : Companion) : Bool :=
  t.beside path c ≠ .directory &&
    (((c.path path).getLast?.getD "").utf8ByteSize ≤ maxNameLength : Bool)

end FileTree

/-- Whether a file has no pages. -/
def Content.isBlank : Content → Bool
  | .bytes data => Storage.isBlankFile data
  | .database _ => false

/-- The size of the pages of a file, or that of new files if it has none. -/
def Content.pageSize (content : Content) : Nat :=
  let size := Header.pageSize content.toBytes
  if Storage.PageFormat.sizes.contains size then size else Storage.PageFormat.standard.size

/-- The content of a file with the pages in the journal beside it. A file without pages is left as
it is, and so is one whose journal says nothing. -/
def Content.withJournal (content : Content) (journal : Option Content) : Content :=
  match journal with
  | some (.bytes data) =>
    if content.isBlank ∨ (Storage.Journal.format? content.pageSize data).isNone then content
    else .bytes (Storage.Journal.restore content.pageSize data content.toBytes)
  | _ => content

namespace Opening

/-! ## Files beside -/

/-- Takes back a change that was left half done, and gives what the file holds then. Beside a file
without pages there is none. -/
def rollBack (a : Access) (path : List String) (content : Content) : Opening Content := do
  match (← get).beside path .journal with
  | .nothing => return content
  | .directory => if content.isBlank then return content else throw .cannotRead
  | .file first =>
    if content.isBlank then
      if a.canWrite then modify fun t => t.eraseBeside path .journal
      return content
    else if first = 0 then return content
    else if a.canWrite then
      let restored := content.withJournal ((← get).content? (Companion.journal.path path))
      modify fun t => (t.put path (.file restored)).eraseBeside path .journal
      return restored
    else throw .cannotRollBack

/-- Whether there is a log. A log beside a file without pages is removed. -/
def findLog (a : Access) (path : List String) (isBlank : Bool) : Opening Bool := do
  match (← get).beside path .log with
  | .nothing => return false
  | .directory => throw (if isBlank then .cannotDelete else .cannotOpen)
  | .file _ =>
    if isBlank then
      modify fun t => t.eraseBeside path .log
      return false
    else if a.canLog then return true
    else throw .cannotOpen

/-- The content of a file with the changes in the log beside it. A file that can be written has them
when its log is closed. -/
def catchUp (a : Access) (path : List String) (content : Content) : Opening Content := do
  match (← get).node? (Companion.log.path path), content with
  | some (.file (.bytes log)), .bytes data =>
    let content := .bytes (Storage.Log.apply log data)
    if a.canWrite then modify fun t => t.put path (.file content)
    return content
  | _, _ => return content

def startJournal (path : List String) : Opening Unit := do
  if (← get).canMakeBeside path .journal then modify fun t => t.eraseBeside path .journal
  else throw .cannotOpen

/-- Writes what a file holds. Where no log is in use, the change is kept in a journal. -/
def write (path : List String) (file : DatabaseFile) : Opening Unit := do
  if ¬file.image.logged then startJournal path
  modify fun t => t.put path (.file (.database file))

def logIndexSize : Nat := 32768

/-- Closes a log. One whose file was only read stays, and so does one that had no index. -/
def closeLog (a : Access) (path : List String) (t : FileTree) : FileTree :=
  let blank (size : Nat) : Node := .file (.bytes ⟨(List.replicate size 0).toArray⟩)
  let kept := if t.beside path .log = .nothing then t.put (Companion.log.path path) (blank 0) else t
  if t.beside path .logIndex = .directory then kept
  else if a.canWrite then (t.eraseBeside path .log).eraseBeside path .logIndex
  else kept.put (Companion.logIndex.path path) (blank logIndexSize)

/-! ## The file -/

/-- What a database file was found to hold. -/
inductive Found where
  /-- A database that has been opened before. -/
  | ready (file : DatabaseFile)
  /-- Pages, of a version that must not be changed perhaps. -/
  | pages (image : Image) (isFrozen : Bool)

/-- Whether a file says that changes are first written to a log. -/
def isLogged : Content → Bool
  | .bytes data => !Storage.isBlankFile data && Header.isKnown data && Header.isLogged data
  | .database file => file.image.logged

def find : Content → Except Fault Found
  | .database file => .ok (.ready file)
  | .bytes data =>
    if Storage.isBlankFile data then .ok (.pages (.fresh false) false)
    else if Header.isKnown data then do
      let h ← Header.read data
      .ok (.pages (← Image.ofBytes data h) (Header.isFrozen data))
    else .error .notDatabase

/-- What a file holds after it was said that changes are first written to a log. -/
def markLogged : Content → Content
  | .database file => .database { file with image := { file.image with logged := true } }
  | .bytes data =>
    if Storage.isBlankFile data then .bytes (Image.fresh true).toBytes
    else
      match Header.read data with
      | .ok h => .bytes (Header.markLogged data h)
      | .error _ => .bytes data

structure Connection where
  file : DatabaseFile
  canWrite : Bool
  /-- Whether a log is in use that has no index. -/
  isStuck : Bool

/-- Makes what pages lack. Where that fails, what was made before stays in the file. -/
def prepare (path : List String) (write : Except Fault Unit) (im : Image) :
    Opening DatabaseFile := do
  let (result, prepared) := (ExceptT.run (Image.prepare write)).run im
  let isChanged := prepared.trees.length ≠ im.trees.length
  if isChanged ∧ ¬im.logged then modify fun t => t.eraseBeside path .journal
  match result with
  | .error fault =>
    if isChanged then modify fun t => t.put path (.file (.bytes prepared.toBytes))
    throw fault
  | .ok _ => return .ofImage prepared

/-- Opens a file whose log is in use if `usesLog`, or else will be if it can. -/
def openWith (a : Access) (usesLog : Bool) (path : List String) (content : Content) :
    Opening Connection := do
  let found ← MonadExcept.ofExcept (find content)
  let isFrozen := match found with | .ready _ => false | .pages _ isFrozen => isFrozen
  let canWrite := a.canWrite && !a.isFixed && !isFrozen
  let switches := a.canLog && !a.isFixed && !usesLog
  if switches then
    if ¬canWrite then throw .readOnly
    startJournal path
    modify fun t => t.put path (.file (markLogged content))
  let logs := usesLog || switches
  let t ← get
  let isStuck := logs && t.beside path .logIndex == .directory
  let canWrite := canWrite && !isStuck
  let file ←
    match found with
    | .ready file => pure { file with image := { file.image with logged := logs } }
    | .pages im _ =>
      let write : Except Fault Unit :=
        if ¬canWrite then .error .readOnly
        else if logs || t.canMakeBeside path .journal then .ok ()
        else .error .cannotOpen
      prepare path write { im with logged := logs }
  if canWrite then modify fun t => t.put path (.file (.database file))
  return ⟨file, canWrite, isStuck⟩

/-- Whether the file at a path says that changes are first written to a log. -/
def isLoggedAt (t : FileTree) (path : List String) : Bool :=
  match t.node? path with
  | some (.file content) => isLogged content
  | _ => false

def openContent (a : Access) (path : List String) (content : Content) : Opening Connection := do
  let content ← if a.isFixed then pure content else rollBack a path content
  let hasLog ← if a.isFixed then pure false else findLog a path content.isBlank
  let usesLog := !a.isFixed && (hasLog || isLogged content)
  if usesLog && !(a.canLog && (← get).canMakeBeside path .log) then throw .cannotOpen
  let content ← if hasLog then catchUp a path content else pure content
  let close : Opening Unit :=
    modify fun t =>
      if usesLog || (a.canLog && !a.isFixed && isLoggedAt t path) then closeLog a path t else t
  let connection ← tryCatch (openWith a usesLog path content) fun fault => do
    close
    throw fault
  close
  return connection

end Opening

end RoutineParams
