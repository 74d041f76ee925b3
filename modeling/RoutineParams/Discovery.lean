import RoutineParams.Action
import RoutineParams.Glob.Depth

/-!
# Discovery

The files of a directory that a configuration admits, at any depth, in the order of their paths,
and the routines of those that are text. A file is admitted if a pattern includes its path, none
ignores it, and it is not too large. Files of one path stay in the order in which they are listed.
-/

namespace RoutineParams

/-- The patterns that texts write, or the first error among them. -/
def readPatterns : List String → Except Error (List Glob.Pattern)
  | [] => .ok []
  | text :: texts =>
    match Glob.Pattern.parse text with
    | .error f => .error (.pattern text f)
    | .ok p =>
      match readPatterns texts with
      | .ok ps => .ok (p :: ps)
      | .error e => .error e

/-- The patterns that texts write together, of which none is too deep. -/
def readPatternSet (texts : List String) : Except Error (List Glob.Pattern) := do
  let patterns ← readPatterns texts
  match Glob.tooDeep? patterns with
  | none => .ok patterns
  | some i => .error (.patternSet texts i)

structure Admission where
  includes : List Glob.Pattern
  ignores : List Glob.Pattern
  maxFileSize : Nat

def Admission.ofConfig (c : Config) : Except Error Admission := do
  let includes ← readPatternSet c.includePatterns
  let ignores ← readPatternSet c.ignorePatterns
  .ok ⟨includes, ignores, c.maxFileSize.toNat⟩

def Admission.admits (a : Admission) (path : String) (size : Nat) : Bool :=
  a.includes.any (·.isMatch path) && !a.ignores.any (·.isMatch path) && size ≤ a.maxFileSize

/-- A file that was found: its path below the directory, with slashes for backslashes. -/
structure SourceFile where
  path : String
  content : Content

/-- The path of a file below a directory. Of names that are no text it has what shows them. -/
def sourcePath (names : List FileName) : String :=
  String.ofList ((FilePath.join (names.map FileName.shown)).toList.map fun c =>
    if c = '\\' then '/' else c)

/-- The files below the directory `dir` that a configuration admits, in the order of their paths. -/
def sourceFiles (dir : String) (c : Config) (t : FileTree) : Except Error (List SourceFile) :=
  match t.directory? dir with
  | none => .error (.sourceNotFound dir)
  | some directory => do
    let admission ← Admission.ofConfig c
    let files := (t.filesBelow directory).map fun (names, content) => ⟨sourcePath names, content⟩
    .ok ((files.filter fun (f : SourceFile) => admission.admits f.path f.content.size).mergeSort
      fun f g => f.path ≤ g.path)

/-- The routines of a file; none if it is not text. -/
def SourceFile.routines (f : SourceFile) : List Routine :=
  match f.content.text? with
  | some script => routinesOfScript f.path script
  | none => []

def routinesOfFiles (files : List SourceFile) : List Routine := files.flatMap SourceFile.routines

end RoutineParams
