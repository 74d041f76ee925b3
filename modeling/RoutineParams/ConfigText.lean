import RoutineParams.Config
import RoutineParams.Toml.Reader
import RoutineParams.Toml.Writer

/-!
# Configurations as text

A configuration is kept as a document of TOML. What the document does not set has its standard
value, and keys that mean nothing here are passed over. Numbers beyond the range of TOML cannot be
written.

    Config.ofText? s                  the configuration that `s` writes
    Config.text? c                    `c` as text
-/

namespace RoutineParams

namespace Toml.Value

def string? : Value → Option String
  | .string s => some s
  | _ => none

def unsigned? : Value → Option UInt64
  | .integer n => if 0 ≤ n then some (UInt64.ofNat n.toNat) else none
  | _ => none

def strings? : Value → Option (List String)
  | .array items => items.mapM string?
  | _ => none

end Toml.Value

/-- The value of a key, read by `read`, or a standard one where the key is missing. -/
def Toml.Entries.getOr {α : Type} (t : Toml.Entries) (key : String)
    (read : Toml.Value → Option α) (standard : α) : Option α :=
  match t.lookup key with
  | some v => read v
  | none => some standard

def Config.ofEntries? (t : Toml.Entries) : Option Config := do
  let std := Config.standard
  some {
    databaseName := ← t.getOr "database_name" Toml.Value.string? std.databaseName
    includePatterns := ← t.getOr "include_patterns" Toml.Value.strings? std.includePatterns
    ignorePatterns := ← t.getOr "ignore_patterns" Toml.Value.strings? std.ignorePatterns
    maxFileSize := ← t.getOr "max_file_size" Toml.Value.unsigned? std.maxFileSize
    threads := ← t.getOr "threads" (fun v => v.unsigned?.map some) std.threads
    batchSize := ← t.getOr "batch_size" Toml.Value.unsigned? std.batchSize }

def Config.ofText? (text : String) : Option Config := (Toml.parse? text).bind Config.ofEntries?

/-- A number as it is written, if it can be. -/
def Toml.writeUnsigned? (n : UInt64) : Option (List Char) :=
  if n.toNat ≤ Toml.maxInteger then some (decimal n.toNat) else none

def Config.text? (c : Config) : Option String := do
  let size ← Toml.writeUnsigned? c.maxFileSize
  let threads ←
    match c.threads with
    | none => some []
    | some n => (Toml.writeUnsigned? n).map (Toml.writeEntry "threads")
  let batch ← Toml.writeUnsigned? c.batchSize
  some (String.ofList (
    Toml.writeEntry "database_name" (Toml.writeString c.databaseName) ++
    Toml.writeEntry "include_patterns" (Toml.writeStrings c.includePatterns) ++
    Toml.writeEntry "ignore_patterns" (Toml.writeStrings c.ignorePatterns) ++
    Toml.writeEntry "max_file_size" size ++ threads ++
    Toml.writeEntry "batch_size" batch))

end RoutineParams
