import RoutineParams.Storage.Command

/-!
# Tables of a database

A database has one table of routines and one of parameters. Each has a key, which no two rows share,
and an index besides.
-/

namespace RoutineParams.Storage

structure TableSchema where
  name : String
  columns : List String
  /-- The definitions of the columns and the key, as they are written after the name. -/
  definition : String
  indexName : String
  indexed : List String

def TableSchema.routines : TableSchema where
  name := "modules"
  columns := ["database_name", "object_id", "name", "type", "definition"]
  definition := "(
                database_name TEXT NOT NULL,
                object_id INTEGER NOT NULL,
                name TEXT NOT NULL,
                type TEXT NOT NULL CHECK(type IN ('P', 'FN')),
                definition TEXT NOT NULL,
                PRIMARY KEY (database_name, object_id)
            )"
  indexName := "idx_modules_name"
  indexed := ["database_name", "name"]

def TableSchema.parameters : TableSchema where
  name := "module_params"
  columns := ["database_name", "object_id", "name", "default_value", "extracted_at"]
  definition := "(
                database_name TEXT NOT NULL,
                object_id INTEGER NOT NULL,
                name TEXT NOT NULL,
                default_value TEXT NOT NULL DEFAULT '',
                extracted_at INTEGER NOT NULL,
                PRIMARY KEY (database_name, object_id, name)
            )"
  indexName := "idx_module_params_object"
  indexed := ["object_id"]

namespace TableSchema

def command (s : TableSchema) : String := "CREATE TABLE " ++ s.name ++ " " ++ s.definition

def form (s : TableSchema) : TableForm := .ofCommand s.command

/-- The name of the index that keeps the key. -/
def keyName (s : TableSchema) : String := "sqlite_autoindex_" ++ s.name ++ "_1"

/-- The end of the command that makes the index, from its name on. -/
def indexText (s : TableSchema) : String :=
  s.indexName ++ " ON " ++ s.name ++ "(" ++ ", ".intercalate s.indexed ++ ")"

def indexCommand (s : TableSchema) : String := "CREATE INDEX " ++ s.indexText

/-- The command that makes the index unless it is there. -/
def indexRequest (s : TableSchema) : String := "CREATE INDEX IF NOT EXISTS " ++ s.indexText

/-- Where the name of an indexed column stands in that command, after the columns `before` it. -/
def indexedPlace (s : TableSchema) (before : List String) : Nat :=
  s.indexRequest.length - s.indexText.length + s.indexName.length + " ON ".length +
    s.name.length + 1 + before.foldl (fun n c => n + c.length + ", ".length) 0

/-- What making the table, its key and its index lists: the kind of each, its name, and the command
that made it. -/
def made (s : TableSchema) : List (String × String × String) :=
  [("table", s.name, s.command), ("index", s.keyName, ""), ("index", s.indexName, s.indexCommand)]

end TableSchema

end RoutineParams.Storage
