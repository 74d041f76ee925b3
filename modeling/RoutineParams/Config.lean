import RoutineParams.Text.Blank

/-!
# Configuration

What can be set for a run: the name under which results are stored, which files of a directory
are read, and how the work is shared out. A configuration can be held that no run accepts;
`validate` says what is wrong with it.
-/

namespace RoutineParams

structure Config where
  databaseName : String
  includePatterns : List String
  ignorePatterns : List String
  /-- The size in bytes above which a file is left out. -/
  maxFileSize : UInt64
  /-- How many threads work at a time; none for as many as there are processors. -/
  threads : Option UInt64
  /-- How many routines make one piece of work. -/
  batchSize : UInt64
deriving DecidableEq, Repr

/-- The settings of a run for which nothing is set. -/
def Config.standard : Config where
  databaseName := "ParamParser_Demo"
  includePatterns := ["**/*.sql"]
  ignorePatterns := ["**/.git/**", "**/target/**", "**/bin/**", "**/obj/**"]
  maxFileSize := 1048576
  threads := none
  batchSize := 100

/-- What makes a configuration unfit for a run. -/
inductive ConfigFault where
  | emptyDatabaseName
  | noBatch
  | noThread
deriving DecidableEq, Repr

def ConfigFault.message : ConfigFault → String
  | .emptyDatabaseName => "database_name must not be empty"
  | .noBatch => "batch_size must be at least 1"
  | .noThread => "threads must be at least 1"

def Config.fault? (c : Config) : Option ConfigFault :=
  if isAllBlank c.databaseName.toList then some .emptyDatabaseName
  else if c.batchSize = 0 then some .noBatch
  else if c.threads = some 0 then some .noThread
  else none

/-- A configuration that is fit for a run. -/
def Config.validate (c : Config) : Except ConfigFault Config :=
  match c.fault? with
  | some f => .error f
  | none => .ok c

/-- How many threads work at a time on a machine with `processors` processors. -/
def Config.threadCount (c : Config) (processors : Nat) : Nat :=
  (c.threads.map UInt64.toNat).getD processors

end RoutineParams
