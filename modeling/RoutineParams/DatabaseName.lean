import RoutineParams.Text.Percent
import RoutineParams.Text.Split

/-!
# Names of databases

The name of a database is a path, or it starts with `file:` and tells after the path, which is in
percent notation, how the file is opened:

    file:p?mode=ro                    the file is there and is not changed
    file:p?mode=rw                    the file is there
    file:p?mode=rwc                   the file is made unless it is there
    file:p?mode=memory                there is no file
    file:p?immutable=1                nobody changes the file
    file:p?nolock=1                   the file is not locked
    file:p?modeof=q                   the file is made with the permissions of the file at `q`

The path `:memory:` and the empty one stand for databases without a file.
-/

namespace RoutineParams

inductive AccessMode where
  | readOnly
  | existing
  | create
  | memory
deriving DecidableEq, Repr

/-- Why the name of a database leads to no open database. -/
inductive NameFault where
  | cannotOpen
  | cannotRead
  /-- A zero byte stands at a place of the name. -/
  | zeroByte (place : Nat)
  | unknownAuthority (name : String)
  | unknownMode (kind name : String)
  | modeNotAllowed (name : String)
  | unknownSystem (name : String)
deriving DecidableEq, Repr

def NameFault.message (name : String) : NameFault → String
  | cannotOpen => "unable to open database file: " ++ name
  | cannotRead => "disk I/O error"
  | zeroByte place => "nul byte found in provided data at position: " ++ toString place
  | unknownAuthority name => "invalid uri authority: " ++ name
  | unknownMode kind name => "no such " ++ kind ++ " mode: " ++ name
  | modeNotAllowed name => "access mode not allowed: " ++ name
  | unknownSystem name => "no such vfs: " ++ name

/-- What the name of a database asks for. -/
structure DatabaseRequest where
  /-- The path of the file, if there is one. -/
  path : Option String
  mode : AccessMode
  /-- Whether nobody changes the file. -/
  isFixed : Bool
  /-- Whether the file can be shared through a log beside it. -/
  canLog : Bool
  /-- The path of what a file that is made has the permissions of. It must be there. -/
  permissionsOf : Option String
deriving DecidableEq, Repr

namespace AccessMode

def ofName? (name : String) : Option AccessMode :=
  match name with
  | "ro" => some readOnly
  | "rw" => some existing
  | "rwc" => some create
  | "memory" => some memory
  | _ => none

/-- How much a mode asks for. A name cannot ask for more than it is given. -/
def rank : AccessMode → Nat
  | readOnly => 1
  | existing => 2
  | create => 3
  | memory => 4

/-- Whether a mode may follow on a mode. -/
def allows (given asked : AccessMode) : Bool := asked = memory || asked.rank ≤ given.rank

end AccessMode

namespace DatabaseRequest

/-! ## Options -/

/-- An option of a name: what it is called, and its value. Where there is no equals sign the value
is empty. -/
def readOption (s : List Char) : String × String :=
  (percentText (s.takeWhile (· != '=')), percentText ((s.dropWhile (· != '=')).drop 1))

/-- The options after the path of a name. One without a name is passed over. -/
def readOptions (s : List Char) : List (String × String) :=
  ((splitAt '&' s).map readOption).filter fun o => o.1 != ""

/-- The mode that options leave, from a mode on. -/
def modeAfter (mode : AccessMode) : List (String × String) → Except NameFault AccessMode
  | [] => .ok mode
  | ("cache", value) :: options =>
    if value = "shared" ∨ value = "private" then modeAfter mode options
    else .error (.unknownMode "cache" value)
  | ("mode", value) :: options =>
    match AccessMode.ofName? value with
    | none => .error (.unknownMode "access" value)
    | some asked =>
      if mode.allows asked then modeAfter asked options else .error (.modeNotAllowed value)
  | _ :: options => modeAfter mode options

/-- Whether an option is set: to a number that is not 0, or to a word for it. -/
def isSet (options : List (String × String)) (name : String) : Bool :=
  match options.lookup name with
  | none => false
  | some value =>
    let digits := value.toList.takeWhile Char.isDigit
    if digits.isEmpty then ["on", "yes", "true"].contains value.toLower
    else (digits.foldl (fun n c => n * 10 + (c.toNat - '0'.toNat)) 0) % 256 != 0

/-- The ways to use the file system that a name can ask for, and whether files are shared through a
log there. -/
def systems : List (String × Bool) :=
  [("unix", true), ("unix-excl", true), ("unix-none", false), ("unix-dotfile", false),
   ("memdb", false)]

/-! ## Names -/

/-- Whether a path stands for a database without a file. -/
def isNoFile (path : String) : Bool := path == "" || path == ":memory:"

/-- What a name asks for after `file:` and what names a machine. -/
def ofRest (mode : AccessMode) (s : List Char) : Except NameFault DatabaseRequest := do
  let s := s.takeWhile (· != '#')
  let path := percentText (s.takeWhile (· != '?'))
  let options := readOptions ((s.dropWhile (· != '?')).drop 1)
  let mode ← modeAfter mode options
  let system := ((options.reverse.lookup "vfs").getD "unix")
  match systems.lookup system with
  | none => .error (.unknownSystem system)
  | some canLog =>
    .ok {
      path := if isNoFile path ∨ mode = .memory ∨ system = "memdb" then none else some path
      mode
      isFixed := isSet options "immutable"
      canLog := canLog && !isSet options "nolock"
      permissionsOf := options.lookup "modeof" }

/-- What a name asks for that is opened in a mode unless it tells another one. Two slashes start the
name of a machine, which must be this one. -/
def ofName (mode : AccessMode) (name : String) : Except NameFault DatabaseRequest :=
  match name.toByteArray.toList.findIdx? (· == 0), name.toList with
  | some place, _ => .error (.zeroByte place)
  | none, 'f' :: 'i' :: 'l' :: 'e' :: ':' :: '/' :: '/' :: s =>
    let machine := String.ofList (s.takeWhile (· != '/'))
    if machine = "" ∨ machine = "localhost" then ofRest mode (s.dropWhile (· != '/'))
    else .error (.unknownAuthority machine)
  | none, 'f' :: 'i' :: 'l' :: 'e' :: ':' :: s => ofRest mode s
  | none, _ => .ok ⟨if isNoFile name then none else some name, mode, false, true, none⟩

end DatabaseRequest

end RoutineParams
