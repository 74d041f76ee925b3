import RoutineParams.Config
import RoutineParams.Output
import RoutineParams.Store

/-!
# Values as JSON

How the values of this library are written as JSON values and read from them. A structure is
read from an object or from an array of its fields; it must be complete, a configuration apart,
whose missing fields have their standard values.
-/

namespace RoutineParams

/-- The kind that a JSON value stands for. -/
def Kind.ofJson? (j : Json) : Option Kind := j.name?.bind Kind.ofTag?

/-- A kind as a JSON value. -/
def Kind.toJson (k : Kind) : Json := .str k.tag

def Token.ofJson? (j : Json) : Option Token := do
  match ← j.fields? ["kind", "text"] with
  | [some kind, some text] => some ⟨← Kind.ofJson? kind, ← text.str?⟩
  | _ => none

def Token.toJson (t : Token) : Json := .obj [("kind", t.kind.toJson), ("text", .str t.text)]

def Parameter.ofJson? (j : Json) : Option Parameter := do
  match ← j.fields? ["object_id", "name", "default_value"] with
  | [some id, some name, some default] => some ⟨← id.int64?, ← name.str?, ← default.str?⟩
  | _ => none

def RoutineKind.ofJson? (j : Json) : Option RoutineKind := j.name?.bind RoutineKind.ofLabel?

def Routine.ofJson? (j : Json) : Option Routine := do
  match ← j.fields? ["object_id", "name", "kind", "definition"] with
  | [some id, some name, some kind, some definition] =>
    some ⟨← id.int64?, ← name.str?, ← RoutineKind.ofJson? kind, ← definition.str?⟩
  | _ => none

def Routine.toJson (r : Routine) : Json :=
  .obj [("object_id", .int r.objectId.toInt), ("name", .str r.name),
    ("kind", .str r.kind.label), ("definition", .str r.definition)]

def StoredParameter.ofJson? (j : Json) : Option StoredParameter := do
  match ← j.fields? ["database_name", "object_id", "name", "default_value", "extracted_at"] with
  | [some database, some id, some name, some default, some time] =>
    some ⟨← database.str?, ← id.int64?, ← name.str?, ← default.str?, ← time.int64?⟩
  | _ => none

def StoredParameter.toJson (p : StoredParameter) : Json :=
  .obj [("database_name", .str p.databaseName), ("object_id", .int p.objectId.toInt),
    ("name", .str p.name), ("default_value", .str p.default),
    ("extracted_at", .int p.extractedAt.toInt)]

/-- A field read by `read`, or its standard value where it is missing. -/
def Json.orStandard {α : Type} (read : Json → Option α) (standard : α) : Option Json → Option α
  | some j => read j
  | none => some standard

def Config.ofJson? (j : Json) : Option Config := do
  let std := Config.standard
  match ← j.fields? ["database_name", "include_patterns", "ignore_patterns", "max_file_size",
      "threads", "batch_size"] with
  | [name, includes, ignores, size, threads, batch] =>
    some {
      databaseName := ← Json.orStandard Json.str? std.databaseName name
      includePatterns := ← Json.orStandard (Json.list? Json.str?) std.includePatterns includes
      ignorePatterns := ← Json.orStandard (Json.list? Json.str?) std.ignorePatterns ignores
      maxFileSize := ← Json.orStandard Json.uint64? std.maxFileSize size
      threads := ← Json.orStandard (Json.optional? Json.uint64?) std.threads threads
      batchSize := ← Json.orStandard Json.uint64? std.batchSize batch }
  | _ => none

def Config.toJson (c : Config) : Json :=
  .obj [("database_name", .str c.databaseName),
    ("include_patterns", .arr (c.includePatterns.map .str)),
    ("ignore_patterns", .arr (c.ignorePatterns.map .str)),
    ("max_file_size", .int c.maxFileSize.toNat),
    ("threads", match c.threads with
      | some n => .int n.toNat
      | none => .null),
    ("batch_size", .int c.batchSize.toNat)]

end RoutineParams
