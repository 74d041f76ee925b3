import RoutineParams.Config
import RoutineParams.DatabaseName
import RoutineParams.Glob.Pattern
import RoutineParams.Storage.Fault
import RoutineParams.Text.Quoted

/-!
# Errors

What can go wrong in a command, as causes: an error is a root cause, perhaps within one or more
contexts. Its text gives every cause, outermost first, between colons; its headline gives only the
outermost one.

    e.message = the texts of `e.causes` joined by ": "
-/

namespace RoutineParams

/-- What can go wrong with a file. -/
inductive FileFault where
  | notFound
  | alreadyExists
  | notDirectory
  | isDirectory
  | nameTooLong
  | zeroByte
  | notText
deriving DecidableEq, Repr

/-- The text of a fault. -/
def FileFault.message : FileFault → String
  | .notFound => "No such file or directory (os error 2)"
  | .alreadyExists => "File exists (os error 17)"
  | .notDirectory => "Not a directory (os error 20)"
  | .isDirectory => "Is a directory (os error 21)"
  | .nameTooLong => "File name too long (os error 36)"
  | .zeroByte => "file name contained an unexpected NUL byte"
  | .notText => "stream did not contain valid UTF-8"

/-- In what a cause arose. -/
inductive Context where
  | loadingConfig
  | reading (path : String)
  | writing (path : String)
  | readingCatalog (path : String)
  | openingDatabase (path : String)
deriving DecidableEq, Repr

/-- The text of a context. -/
def Context.message : Context → String
  | .loadingConfig => "Failed to load configuration"
  | .reading path => "Failed to read " ++ path
  | .writing path => "Failed to write " ++ quotedText path
  | .readingCatalog path => "Failed to read catalog " ++ quotedText path
  | .openingDatabase path => "Failed to open database: " ++ quotedText path

inductive Error where
  | config (fault : ConfigFault)
  | pattern (text : String) (fault : Glob.Fault)
  /-- A pattern among those that are matched together is too deep. -/
  | patternSet (texts : List String) (index : Nat)
  | sourceNotFound (path : String)
  | file (fault : FileFault)
  /-- A fault of the file that holds a configuration. -/
  | configFile (fault : FileFault)
  | malformedConfig
  | unwritableConfig
  /-- A fault of the file that holds a database. -/
  | database (fault : Storage.Fault)
  /-- The name of a database that leads to none. -/
  | unopened (name : String) (fault : NameFault)
  | unknownFormat (name : String)
  | within (context : Context) (cause : Error)
deriving DecidableEq, Repr

namespace Error

/-- The texts of the causes of an error, the outermost one first. The causes of a fault of a
pattern or of a configuration's file are named with it, and once more on their own. -/
def causes : Error → List String
  | config f => ["Config error: " ++ f.message]
  | pattern text f =>
    let fault := "error parsing glob '" ++ text ++ "': " ++ f.message
    ["Invalid glob pattern '" ++ text ++ "': " ++ fault, fault]
  | patternSet texts index =>
    let fault := "error parsing pattern " ++ toString index
    ["Invalid glob pattern '" ++ ", ".intercalate texts ++ "': " ++ fault, fault]
  | sourceNotFound path => ["Source not found: " ++ path]
  | file f => [f.message]
  | configFile f => ["IO error: " ++ f.message, f.message]
  | malformedConfig => ["TOML parse error"]
  | unwritableConfig => ["TOML serialize error"]
  | database f => f.message :: f.cause?.toList
  | unopened name f => ["Failed to open database " ++ name ++ ": " ++ f.message name]
  | unknownFormat name => ["Unknown output format '" ++ name ++ "' (expected json or ndjson)"]
  | within context cause => context.message :: cause.causes

def message (e : Error) : String := ": ".intercalate e.causes

def headline (e : Error) : String := e.causes.headD ""

end Error

end RoutineParams
