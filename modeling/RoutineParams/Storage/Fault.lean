/-!
# Faults of databases

What can go wrong with the file of a database once its name has led to it. Every fault has a text,
and nearly all have a number with an explanation.
-/

namespace RoutineParams.Storage

/-- What can go wrong with the file of a database. -/
inductive Fault where
  | notDatabase
  | malformed
  | cannotOpen
  | readOnly
  /-- A change that was left half done cannot be taken back. -/
  | cannotRollBack
  | cannotRead
  | cannotDelete
  /-- A command names a column at a place of its text that its table lacks. -/
  | noColumn (column command : String) (place : Nat)
  /-- Rows are put into a table with a column that it lacks. -/
  | noColumnOf (table column : String)
  /-- Something of another kind has the name of what is to be made. -/
  | nameTaken (kind name : String)
  | indexOfView
  /-- A row lacks a value that its table asks for. -/
  | required (table column : String)
  /-- The number of a row is no number. -/
  | badNumber
  /-- A row holds a value of a kind that was not expected in a column of the answer. -/
  | unexpected (kind : String) (place : Nat) (column : String)
deriving DecidableEq, Repr

namespace Fault

def message : Fault → String
  | notDatabase => "file is not a database"
  | malformed => "database disk image is malformed"
  | cannotOpen => "unable to open database file"
  | readOnly | cannotRollBack => "attempt to write a readonly database"
  | cannotRead | cannotDelete => "disk I/O error"
  | noColumn column command place =>
    "no such column: " ++ column ++ " in " ++ command ++ " at offset " ++ toString place
  | noColumnOf table column => "table " ++ table ++ " has no column named " ++ column
  | nameTaken kind name =>
    "there is already " ++ (if kind = "index" then "an " else "a ") ++ kind ++ " named " ++ name
  | indexOfView => "views may not be indexed"
  | required table column => "NOT NULL constraint failed: " ++ table ++ "." ++ column
  | badNumber => "datatype mismatch"
  | unexpected kind place column =>
    "Invalid column type " ++ kind ++ " at index: " ++ toString place ++ ", name: " ++ column

/-- The number of a fault and its explanation. A row with an unexpected value has none. -/
def code? : Fault → Option (Nat × String)
  | notDatabase => some (26, "File opened that is not a database file")
  | malformed => some (11, "The database disk image is malformed")
  | cannotOpen => some (14, "Unable to open the database file")
  | readOnly => some (8, "Attempt to write a readonly database")
  | cannotRollBack =>
    some (776, "Database has hot journal that must be rolled back (requires write access)")
  | cannotRead => some (266, "Error reading from disk")
  | cannotDelete => some (2570, "I/O error within xDelete of a VFS object")
  | noColumn _ _ _ | noColumnOf _ _ | nameTaken _ _ | indexOfView =>
    some (1, "SQL error or missing database")
  | required _ _ => some (1299, "A NOT NULL constraint failed")
  | badNumber => some (20, "Data type mismatch")
  | unexpected _ _ _ => none

/-- The cause of a fault: its number with the explanation. -/
def cause? (f : Fault) : Option String :=
  f.code?.map fun (n, text) => "Error code " ++ toString n ++ ": " ++ text

end Fault

end RoutineParams.Storage
