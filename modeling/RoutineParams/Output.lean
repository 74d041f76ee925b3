import RoutineParams.Error
import RoutineParams.Json.Writer
import RoutineParams.Report

/-!
# Output

Parameters are written as JSON: all of them as one array, or each as an object on a line of its
own. In the second case they are written as they come, in the first one only at the end.

    (Output.start f).writeAll ps |>.finish
-/

namespace RoutineParams

inductive OutputFormat where
  /-- As one array. -/
  | json
  /-- One object to a line. -/
  | ndjson
  /-- Not at all: they go to a database. -/
  | database
deriving DecidableEq, Repr

/-- The format with a name, in either case. -/
def OutputFormat.ofName (name : String) : Except Error OutputFormat :=
  let lower := String.ofList (name.toList.map Char.toLower)
  if lower = "json" then .ok .json
  else if lower = "ndjson" ∨ lower = "jsonl" then .ok .ndjson
  else .error (.unknownFormat lower)

def Parameter.toJson (p : Parameter) : Json :=
  .obj [("object_id", .int p.objectId.toInt), ("name", .str p.name),
    ("default_value", .str p.default)]

/-- Output that is under way: the text written so far, the last piece first, and the parameters
that wait for the end, the last one first. -/
structure Output where
  format : OutputFormat
  written : List (List Char)
  waiting : List Parameter

namespace Output

def start (format : OutputFormat) : Output := ⟨format, [], []⟩

def write (o : Output) (p : Parameter) : Output :=
  match o.format with
  | .json => { o with waiting := p :: o.waiting }
  | .ndjson => { o with written := (p.toJson.compact ++ ['\n']) :: o.written }
  | .database => o

def writeAll (o : Output) (ps : List Parameter) : Output := ps.foldl write o

/-- The whole text, once all parameters are written. -/
def finish (o : Output) : String :=
  let text := o.written.reverse.flatten
  match o.format with
  | .json =>
    String.ofList (text ++ Json.pretty (.arr (o.waiting.reverse.map Parameter.toJson)) ++ ['\n'])
  | _ => String.ofList text

end Output

def writeParameters (format : OutputFormat) (ps : List Parameter) : String :=
  ((Output.start format).writeAll ps).finish

/-- What a scan into a database says of itself. -/
structure Summary where
  databaseName : String
  routines : Nat
  parameters : Nat
  withDefaults : Nat
  partials : Nat
deriving DecidableEq, Repr

namespace Summary

def ofReport (databaseName : String) (r : Report) : Summary :=
  ⟨databaseName, r.routines, r.parameters.length, r.withDefaults, r.partials⟩

/-- A summary as a JSON value, with the time that the scan took, in milliseconds. -/
def toJson (s : Summary) (duration : Nat) : Json :=
  .obj [("database_name", .str s.databaseName), ("routines", .int s.routines),
    ("parameters", .int s.parameters), ("with_defaults", .int s.withDefaults),
    ("partial_routines", .int s.partials), ("duration_ms", .int duration)]

/-- A summary with its time on one line, without the line end. -/
def line (s : Summary) (duration : Nat) : String := String.ofList (s.toJson duration).compact

end Summary

/-- A piece of what a command prints. How long the command took is known only when it prints. -/
inductive Printed where
  | text (s : String)
  /-- A summary on a line of its own. -/
  | summary (s : Summary)
deriving DecidableEq, Repr

/-- A printed piece as text, after a time in milliseconds. -/
def Printed.render (duration : Nat) : Printed → String
  | .text s => s
  | .summary s => s.line duration ++ "\n"

/-- Printed pieces as text, after a time in milliseconds. -/
def renderAll (duration : Nat) (ps : List Printed) : String :=
  String.join (ps.map (Printed.render duration))

end RoutineParams
