import RoutineParams.Storage.Fault
import RoutineParams.Storage.Image
import RoutineParams.Store

/-!
# Loose tables

The tables of a file may have been made with other columns or keys than those of a store, and may
hold other values. The same questions are asked of them, and the same changes made, as of a store,
row by row; what a table or a row lacks becomes a fault.

    routinesOf im name                the routines of `name` that may have parameters
    parametersOf im name              the parameters of `name`
    stats im                          how much there is
    apply im c                        what the change `c` leaves
-/

namespace RoutineParams.Loose

open Storage

/-! ## Commands -/

def routineQuestion : String :=
  "SELECT object_id, name, type, definition
             FROM modules
             WHERE database_name = ?1
               AND type IN ('P', 'FN')
               AND instr(definition, '@') > 0
             ORDER BY object_id"

def parameterQuestion : String :=
  "SELECT database_name, object_id, name, default_value, extracted_at
             FROM module_params
             WHERE database_name = ?1
             ORDER BY object_id, name"

def defaultQuestion : String := "SELECT COUNT(*) FROM module_params WHERE default_value <> ''"

/-- The start of the question for the names of databases, which is about those of routines. -/
def nameQuestionStart : String :=
  "SELECT database_name FROM modules
             UNION
             "

def nameQuestion : String :=
  nameQuestionStart ++
    "SELECT database_name FROM module_params
             ORDER BY database_name"

/-- The command that takes out the parameters of a database. -/
def removal : String := "DELETE FROM module_params WHERE database_name = ?1"

/-- Where a part of a text first stands, in characters, if it stands there. -/
def placeOf (part text : String) : Nat := ((text.splitOn part).headD "").length

/-! ## Columns and values -/

/-- The place of a column that a command names at a place of its text. -/
def column (t : StoredTable) (command name : String) (place : Nat) : Except Fault Nat :=
  match t.form.place? name with
  | some i => .ok i
  | none => .error (.noColumn name command place)

/-- The places of the columns that a question asks for in its first words. -/
def asked (t : StoredTable) (question : String) : (place : Nat) → List String →
    Except Fault (List Nat)
  | _, [] => .ok []
  | place, name :: names => do
    let i ← column t question name place
    return i :: (← asked t question (place + name.length + ", ".length) names)

/-- Where the columns begin that a question asks for. -/
def firstPlace : Nat := "SELECT ".length

def kindName : Value → String
  | .null => "Null"
  | .int _ => "Integer"
  | .real _ => "Real"
  | .text _ | .brokenText _ => "Text"
  | .blob _ => "Blob"

/-- The value of a row that a column at a place shows. A column of real numbers has no whole
ones. -/
def shown (t : StoredTable) (r : Row) (i : Nat) : Value :=
  match t.form.columns[i]?.map Column.affinity, r.values.getD i .null with
  | some .real, .int n => .real (Float.ofInt n.toInt)
  | _, v => v

def nameOf (t : StoredTable) (i : Nat) : String := (t.form.columns[i]?.map Column.name).getD ""

/-- The columns of an answer: the name of each and its value. -/
structure Answer where
  names : List String
  values : List Value

namespace Answer

/-- The answer of a row with the columns at some places. -/
def ofRow (t : StoredTable) (places : List Nat) (r : Row) : Answer :=
  ⟨places.map (nameOf t), places.map (shown t r)⟩

/-- The fault of a value that is not of the kind expected. -/
def fault (a : Answer) (i : Nat) : Fault :=
  .unexpected (kindName (a.values.getD i .null)) i (a.names.getD i "")

def text (a : Answer) (i : Nat) : Except Fault String :=
  match a.values.getD i .null with
  | .text s => .ok s
  | _ => .error (a.fault i)

def int (a : Answer) (i : Nat) : Except Fault Int64 :=
  match a.values.getD i .null with
  | .int n => .ok n
  | _ => .error (a.fault i)

end Answer

def table (im : Image) (s : TableSchema) : Except Fault StoredTable :=
  match im.table? s.name with
  | some t => .ok t
  | none => .error .malformed

/-- Whether a row has a value at a place, which the column there may change first. -/
def hasValue (t : StoredTable) (i : Nat) (v : Value) (r : Row) : Bool :=
  let affinity := (t.form.columns[i]?.map Column.affinity).getD .blob
  let own := r.values.getD i .null
  !own.isNull && own.cmp (affinity.convert v) == .eq

/-- Rows in the order of their values at some places; of those that are equal there, the first one
stays first. -/
def inOrder (places : List Nat) (rows : List Row) : List Row :=
  rows.mergeSort fun r q => (cmpValues (pick places r.values) (pick places q.values)).isLE

/-! ## Questions -/

def hasAtSign : Value → Bool
  | .text s => s.toList.contains '@'
  | .brokenText data | .blob data => data.toList.contains 0x40
  | _ => false

def routine (a : Answer) : Except Fault Routine := do
  let code ← a.text 2
  let objectId ← a.int 0
  let name ← a.text 1
  return ⟨objectId, name, (RoutineKind.ofCode? code).getD .procedure, ← a.text 3⟩

/-- The routines of the database `name` whose text has an at sign, in the order of their numbers. -/
def routinesOf (im : Image) (name : String) : Except Fault (List Routine) := do
  let t ← table im .routines
  let places ← asked t routineQuestion firstPlace ["object_id", "name", "type", "definition"]
  let database ← column t routineQuestion "database_name" (placeOf "database_name" routineQuestion)
  let isRoutine (r : Row) : Bool :=
    match pick places r.values with
    | [_, _, .text code, definition] => (code == "P" || code == "FN") && hasAtSign definition
    | _ => false
  let rows := (im.rows t).filter fun r => hasValue t database (.text name) r && isRoutine r
  (inOrder (places.take 1) (inOrder ((places.drop 1).take 1) rows)).mapM fun r =>
    routine (.ofRow t places r)

def parameter (a : Answer) : Except Fault StoredParameter := do
  return ⟨← a.text 0, ← a.int 1, ← a.text 2, ← a.text 3, ← a.int 4⟩

/-- The parameters of the database `name`, in the order of their numbers and names. -/
def parametersOf (im : Image) (name : String) : Except Fault (List StoredParameter) := do
  let t ← table im .parameters
  let places ← asked t parameterQuestion firstPlace TableSchema.parameters.columns
  let rows := (im.rows t).filter (hasValue t (places.headD 0) (.text name))
  (inOrder ((places.drop 1).take 2) rows).mapM fun r => parameter (.ofRow t places r)

/-- The values of a column in any table, each once, in order. -/
def distinct (values : List Value) : List Value :=
  let sorted := values.mergeSort fun v w => (v.cmp w).isLE
  sorted.eraseDupsBy fun v w => v.cmp w == .eq

/-- How much there is. The databases are those with a routine or a parameter. -/
def stats (im : Image) : Except Fault StoreStats := do
  let routines ← table im .routines
  let parameters ← table im .parameters
  let default ← column parameters defaultQuestion "default_value"
    (placeOf "default_value" defaultQuestion)
  let ofParameters ← column parameters nameQuestion "database_name"
    (nameQuestionStart.length + firstPlace)
  let ofRoutines ← column routines nameQuestion "database_name" firstPlace
  let isSet (r : Row) : Bool :=
    match r.values.getD default .null with
    | .null | .text "" => false
    | _ => true
  let values (t : StoredTable) (i : Nat) : List Value := (im.rows t).map fun r => shown t r i
  let names := distinct (values parameters ofParameters ++ values routines ofRoutines)
  return {
    routines := (im.rows routines).length
    parameters := (im.rows parameters).length
    withDefaults := ((im.rows parameters).filter isSet).length
    databases := ← names.mapM fun v => Answer.text ⟨[nameOf routines ofRoutines], [v]⟩ 0 }

/-! ## Changes -/

/-- A row with values under the names of their columns. Others have their standard values. -/
def arrange (t : StoredTable) (given : List (String × Value)) : List Value :=
  t.form.columns.map fun c =>
    c.affinity.convert (((given.find? fun x => sameName x.1 c.name).map (·.2)).getD c.default)

/-- The fault of a row that a table does not take. The number of a row must be whole, and may be
left out. -/
def refusal? (t : StoredTable) (values : List Value) : Option Fault :=
  let isBad (i : Nat) : Bool :=
    match values.getD i .null with
    | .null | .int _ => false
    | _ => true
  if t.form.numbers?.any isBad then some .badNumber
  else
    let lacks (x : Column × Value × Nat) : Bool :=
      x.1.isRequired && x.2.1.isNull && t.form.numbers? != some x.2.2
    ((t.form.columns.zip values.zipIdx).find? lacks).map fun x => .required t.name x.1.name

/-- Puts rows into a table, in place of those with their keys. -/
def putRows (im : Image) (s : TableSchema) (rows : List (List Value)) : Except Fault Image := do
  let t ← table im s
  match s.columns.find? fun c => (t.form.place? c).isNone with
  | some c => .error (.noColumnOf s.name c)
  | none =>
    rows.foldlM (fun im row =>
      let values := arrange t (s.columns.zip row)
      match refusal? t values with
      | some fault => .error fault
      | none => .ok (im.putRow t values)) im

def routineValues (name : String) (r : Routine) : List Value :=
  [.text name, .int r.objectId, .text r.name, .text r.kind.code, .text r.definition]

def parameterValues (now : Int64) (name : String) (p : Parameter) : List Value :=
  [.text name, .int p.objectId, .text p.name, .text p.default, .int now]

/-- What a change leaves of the pages. -/
def apply (im : Image) : StoreChange → Except Fault Image
  | .routines name rs => putRows im .routines (rs.map (routineValues name))
  | .parameters now name ps => do
    let t ← table im .parameters
    let i ← column t removal "database_name" (placeOf "database_name" removal)
    let affinity := (t.form.columns[i]?.map Column.affinity).getD .blob
    let im := im.dropRows t i (affinity.convert (.text name))
    putRows im .parameters (ps.map (parameterValues now name))

end RoutineParams.Loose
