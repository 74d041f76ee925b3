import RoutineParams.ConfigFile
import RoutineParams.Database
import RoutineParams.Discovery
import RoutineParams.Output

/-!
# Commands

What the program does, as actions:

    scanDirectory       the parameters of all scripts of a directory, printed or stored
    scanFile            the parameters of one script, printed
    scanCatalog         the parameters of all stored routines, stored
    writeStandard       the standard configuration, written to a file

A command prints last, when nothing can go wrong any more.
-/

namespace RoutineParams

/-- What a command has to know of the machine it runs on. -/
structure Machine where
  processors : Nat
  /-- The time, in seconds. -/
  now : Int64

/-- The report on routines, shared out as a configuration says. -/
def Config.report (c : Config) (m : Machine) (rs : List Routine) : Report :=
  Report.ofRoutines (c.threadCount m.processors) c.batchSize.toNat rs

/-- Scans the scripts of a directory. Without a database the parameters are printed; with one, the
routines are added to it, their parameters replace those stored, and a summary is printed. -/
def scanDirectory (m : Machine) (dir : String) (db : Option String) (format : OutputFormat)
    (c : Config) : Action Report := do
  let files ← Action.ask (sourceFiles dir c)
  let routines := routinesOfFiles files
  let report := c.report m routines
  match db with
  | none => Action.print (.text (writeParameters format report.parameters))
  | some path =>
    let d ← Action.within (.openingDatabase path) (Database.connect path)
    let d ← d.update (.routines c.databaseName routines)
    let d ← d.update (.parameters m.now c.databaseName report.parameters)
    d.emptyLog
    Action.print (.summary (.ofReport c.databaseName report))
  pure report

def parametersOfScript (m : Machine) (name script : String) : List Parameter :=
  (Config.standard.report m (routinesOfScript name script)).parameters

/-- The parameters of the script at a path, which is known by its name alone. -/
def parametersOfFile (m : Machine) (path : String) (t : FileTree) :
    Except Error (List Parameter) :=
  match t.read path with
  | .ok script => .ok (parametersOfScript m ((FilePath.fileName? path).getD path) script)
  | .error f => .error (.within (.reading path) (.file f))

def scanFile (m : Machine) (path : String) (format : OutputFormat) : Action Unit := do
  let ps ← Action.ask (parametersOfFile m path)
  Action.print (.text (writeParameters format ps))

/-- What is printed if a database holds no routine that may have parameters. -/
def noRoutinesText (databaseName : String) : String :=
  "No relevant modules found in " ++ databaseName ++ ".\n"

/-- Scans the routines stored for a configuration's database that may have parameters, and makes
what it finds the parameters of that database. If there are no such routines, nothing changes and
there is no report. -/
def scanCatalog (m : Machine) (db : String) (c : Config) : Action (Option Report) := do
  let routines ← Action.within (.readingCatalog db) do
    (← Database.connectExisting db).routinesOf c.databaseName
  if routines.isEmpty then
    Action.print (.text (noRoutinesText c.databaseName))
    pure none
  else
    let report := c.report m routines
    let d ← Action.within (.openingDatabase db) (Database.connectExisting db)
    let d ← d.update (.parameters m.now c.databaseName report.parameters)
    d.emptyLog
    Action.print (.summary (.ofReport c.databaseName report))
    Action.print (.text "Success.\n")
    pure (some report)

def writeStandard (path : String) : Action Unit :=
  Action.within (.writing path) (Config.standard.save path)

end RoutineParams
