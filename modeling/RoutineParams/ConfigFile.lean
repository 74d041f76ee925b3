import RoutineParams.Action
import RoutineParams.ConfigText

/-!
# Files of configurations

A configuration is loaded from a file, whose absence means that nothing is set, and saved to one.
What is loaded from a file is fit for a run.
-/

namespace RoutineParams

/-- The configuration that a text writes, if it is fit for a run. -/
def Config.read (text : String) : Except Error Config :=
  match Config.ofText? text with
  | none => .error .malformedConfig
  | some c =>
    match c.validate with
    | .ok c => .ok c
    | .error f => .error (.config f)

def Config.loadFrom (path : String) (t : FileTree) : Except Error Config :=
  if t.hasNode path then
    match t.read path with
    | .ok text => Config.read text
    | .error f => .error (.configFile f)
  else .ok .standard

/-- The configuration in a file, the standard one if no file is named. -/
def Config.load (path : Option String) : Action Config :=
  match path with
  | some path => Action.ask (Config.loadFrom path)
  | none => pure .standard

/-- Saves a configuration to a file. The directories above it are made. -/
def Config.save (path : String) (c : Config) : Action Unit := do
  match c.text? with
  | none => throw .unwritableConfig
  | some text => Action.change .configFile (FileChange.save path text.toByteArray)

end RoutineParams
