import RoutineParams.Command
import RoutineParams.Text.Decimal

/-!
# The command line

A line of arguments names a command and its options. An option is written `--name value`,
`--name=value`, `-n value`, `-nvalue` or `-n=value`, and at most once; a value that follows as an
argument of its own does not start with a dash. `Invocation.ofArguments?` reads a line, and
`Invocation.run` does what it says.
-/

namespace RoutineParams

/-! ## Options -/

/-- An option: its name, and the letter that stands for it, if any. -/
structure OptionName where
  name : String
  letter : Option Char

abbrev OptionValues := List (String × String)

/-- Whether an argument cannot be the value of the option before it. -/
def looksLikeOption (arg : String) : Bool :=
  match arg.toList with
  | '-' :: _ :: _ => true
  | _ => false

/-- What an argument says: the option it names and the value written with it. -/
def readOption? (known : List OptionName) (arg : String) : Option (String × Option String) :=
  match arg.toList with
  | '-' :: '-' :: s => do
    let name := String.ofList (s.takeWhile (· != '='))
    let o ← known.find? fun o => o.name == name
    match s.dropWhile (· != '=') with
    | '=' :: value => some (o.name, some (String.ofList value))
    | _ => some (o.name, none)
  | '-' :: c :: s => do
    let o ← known.find? fun o => o.letter == some c
    match s with
    | [] => some (o.name, none)
    | '=' :: value => some (o.name, some (String.ofList value))
    | value => some (o.name, some (String.ofList value))
  | _ => none

def OptionValues.add? (values : OptionValues) (name value : String) : Option OptionValues :=
  if (values.lookup name).isSome then none else some (values ++ [(name, value)])

/-- Reads arguments as options. Two dashes may end them. -/
def readOptions? (known : List OptionName) (values : OptionValues) :
    List String → Option OptionValues
  | [] => some values
  | ["--"] => some values
  | arg :: args =>
    match readOption? known arg with
    | none => none
    | some (name, some value) => (values.add? name value).bind fun vs => readOptions? known vs args
    | some (name, none) =>
      match args with
      | value :: args =>
        if looksLikeOption value then none
        else (values.add? name value).bind fun vs => readOptions? known vs args
      | [] => none

namespace OptionValues

/-- The value of an option that may be missing, read by `read`. -/
def optional? {α : Type} (values : OptionValues) (name : String) (read : String → Option α) :
    Option (Option α) :=
  match values.lookup name with
  | none => some none
  | some value => (read value).map some

/-- The value of an option that must be there, read by `read`. -/
def required? {α : Type} (values : OptionValues) (name : String) (read : String → Option α) :
    Option α :=
  (values.lookup name).bind read

end OptionValues

def readPath? (s : String) : Option String := if s.isEmpty then none else some s

/-- A whole number of 64 bits, perhaps with a plus sign. -/
def readCount? (s : String) : Option UInt64 :=
  let ds := match s.toList with
    | '+' :: ds => ds
    | ds => ds
  if ds ≠ [] ∧ ds.all Char.isDigit ∧ readDecimal ds < UInt64.size then
    some (UInt64.ofNat (readDecimal ds))
  else none

/-! ## Invocations -/

/-- What a scan of many routines can be told besides its source. -/
structure RunOptions where
  databaseName : Option String
  threads : Option UInt64
  batchSize : Option UInt64
  config : Option String
  log : Option String
deriving DecidableEq, Repr

inductive Invocation where
  | scan (dir : String) (db : Option String) (format : String) (options : RunOptions)
  | file (path format : String) (log : Option String)
  | catalog (db : String) (options : RunOptions)
  | init (config : String)
  | version
deriving DecidableEq, Repr

def runOptionNames : List OptionName :=
  [⟨"database-name", some 'n'⟩, ⟨"threads", some 't'⟩, ⟨"batch-size", none⟩,
   ⟨"config", some 'c'⟩, ⟨"log", some 'l'⟩]

def RunOptions.ofValues? (vs : OptionValues) : Option RunOptions := do
  some {
    databaseName := ← vs.optional? "database-name" some
    threads := ← vs.optional? "threads" readCount?
    batchSize := ← vs.optional? "batch-size" readCount?
    config := ← vs.optional? "config" readPath?
    log := ← vs.optional? "log" readPath? }

namespace Invocation

/-- What the arguments after the name of a command ask for. -/
def ofCommand? (command : String) (args : List String) : Option Invocation := do
  match command with
  | "scan" =>
    let vs ← readOptions? (⟨"dir", some 'd'⟩ :: ⟨"db", some 'b'⟩ :: ⟨"format", some 'f'⟩ ::
      runOptionNames) [] args
    let dir ← vs.required? "dir" readPath?
    let db ← vs.optional? "db" readPath?
    let format ← vs.optional? "format" some
    some (.scan dir db (format.getD "ndjson") (← RunOptions.ofValues? vs))
  | "file" =>
    let vs ← readOptions? [⟨"file", some 'f'⟩, ⟨"format", none⟩, ⟨"log", some 'l'⟩] [] args
    let path ← vs.required? "file" readPath?
    let format ← vs.optional? "format" some
    some (.file path (format.getD "json") (← vs.optional? "log" readPath?))
  | "catalog" =>
    let vs ← readOptions? (⟨"db", some 'b'⟩ :: runOptionNames) [] args
    let db ← vs.required? "db" readPath?
    some (.catalog db (← RunOptions.ofValues? vs))
  | "init" =>
    let vs ← readOptions? [⟨"config", some 'c'⟩] [] args
    let config ← vs.optional? "config" readPath?
    some (.init (config.getD "paramparser.toml"))
  | _ => none

def ofArguments? : List String → Option Invocation
  | [] => none
  | arg :: args =>
    match arg.toList with
    | '-' :: 'V' :: _ => some .version
    | _ => if arg = "--version" then some .version else ofCommand? arg args

def log? : Invocation → Option String
  | scan _ _ _ options | catalog _ options => options.log
  | file _ _ log => log
  | init _ | version => none

end Invocation

/-! ## Running -/

/-- How a run ended: the exit code, and the error that stopped it. -/
structure Outcome where
  code : Nat
  error : Option Error

def versionText : String := "paramparser 0.3.0\n"

/-- A configuration with what the options of a run set. -/
def Config.override (c : Config) (o : RunOptions) : Config :=
  { c with
    databaseName := o.databaseName.getD c.databaseName
    threads := o.threads.or c.threads
    batchSize := o.batchSize.getD c.batchSize }

/-- The configuration of a run: what its file sets, then its options. -/
def RunOptions.resolve (o : RunOptions) : Action Config := do
  let c ← Action.within .loadingConfig (Config.load o.config)
  match (c.override o).validate with
  | .ok c => pure c
  | .error f => throw (.config f)

def formatOf (name : String) : Action OutputFormat := Action.ask fun _ => OutputFormat.ofName name

/-- Makes the file of a log, and the directories above it if need be. -/
def openLog (path : String) : FileChange Unit :=
  let dir := (FilePath.parent? path).getD "."
  let name := (FilePath.fileName? path).getD "paramparser.log"
  let file := if dir = "" then name else dir ++ "/" ++ name
  tryCatch (FileChange.touch file) fun _ => do
    FileChange.makeDirectories dir
    FileChange.touch file

namespace Invocation

def action (m : Machine) : Invocation → Action Unit
  | scan dir db format options => do
    let c ← options.resolve
    let format ← formatOf format
    discard (scanDirectory m dir db format c)
  | file path format _ => do
    let format ← formatOf format
    scanFile m path format
  | catalog db options => do
    let c ← options.resolve
    discard (scanCatalog m db c)
  | init config => writeStandard config
  | version => Action.print (.text versionText)

/-- Runs an invocation on a session. A log that cannot be opened stops the run at once. -/
def run (m : Machine) (i : Invocation) (s : Session) : Outcome × Session :=
  let (opened, files) := (ExceptT.run (i.log?.elim (pure ()) openLog)).run s.files
  match opened with
  | .error _ => (⟨101, none⟩, { s with files })
  | .ok _ =>
    match (i.action m).result { s with files } with
    | (.ok _, s) => (⟨0, none⟩, s)
    | (.error e, s) => (⟨1, some e⟩, s)

end Invocation

/-- Runs a command line on a session. One that cannot be read changes nothing. -/
def runArguments (m : Machine) (args : List String) (s : Session) : Outcome × Session :=
  match Invocation.ofArguments? args with
  | none => (⟨2, none⟩, s)
  | some i => i.run m s

end RoutineParams
