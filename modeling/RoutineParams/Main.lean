import RoutineParams.CommandLine
import Std.Time.DateTime.Timestamp

/-!
# The program

Reads the files that a command line names into a file tree, runs the command line on it, writes
what has changed, and prints. All decisions are taken by `runArguments`.
-/

namespace RoutineParams.Main

/-- Puts what lies at a path into the tree, and with `deep` all that lies below it. -/
partial def load (deep : Bool) (path : List String) (t : FileTree) : IO FileTree := do
  try
    let file ← IO.FS.realPath ("/" ++ FilePath.join path)
    if ← file.isDir then
      let mut t := if (t.node? path).isSome then t else t.put path (.directory [])
      if deep then
        for entry in ← file.readDir do
          t ← load true (path ++ [entry.fileName]) t
      return t
    else return t.put path (.file (.bytes (← IO.FS.readBinFile file)))
  catch _ => return t

/-- Puts everything on the way from a path along some names into the tree. -/
def loadAlong (deep : Bool) (path : List String) (names : List String) (t : FileTree) :
    IO FileTree := do
  let mut t := t
  let mut path := path
  for name in names do
    path := if name = ".." then path.dropLast else path ++ [name]
    t ← load false path t
  if deep then load true path t else return t

/-- Puts everything on the way to a path into the tree. -/
def loadPath (deep : Bool) (path : String) (t : FileTree) : IO FileTree :=
  loadAlong deep (if FilePath.isAbsolute path then [] else t.home) (FilePath.parts path) t

/-- The paths that matter to the database with a name. -/
def databasePaths (name : String) : List String :=
  match DatabaseRequest.ofName .create name with
  | .ok { path := some path, .. } =>
    let beside := [Companion.journal, .log, .logIndex].map fun c => path ++ c.suffix
    name :: path :: beside
  | _ => [name]

/-- The paths that an invocation names, and whether it reads all that lies below. -/
def pathsOf (i : Invocation) : List (String × Bool) :=
  let flat (paths : List String) : List (String × Bool) := paths.map fun path => (path, false)
  flat i.log?.toList ++
  match i with
  | .scan dir db _ options =>
    (dir, true) :: flat (db.toList.flatMap databasePaths ++ options.config.toList)
  | .file path _ _ => [(path, false)]
  | .catalog db options => flat (databasePaths db ++ options.config.toList)
  | .init config => [(config, false)]
  | .version => []

/-- The tree that an invocation can see. -/
def treeFor (i : Option Invocation) : IO FileTree := do
  let home := FilePath.parts (← IO.currentDir).toString
  let mut t : FileTree := ⟨.directory [], home⟩
  t ← loadAlong false [] home t
  for (path, deep) in (i.map pathsOf).getD [] do
    t ← loadPath deep path t
  return t

/-- What lies below the root of a tree, with the paths to it that are texts. -/
def contents (t : FileTree) : List (List String × Node) :=
  t.root.descendants.filterMap fun (names, node) =>
    (names.mapM FileName.text?).map fun path => (path, node)

/-- Writes what a run has changed. -/
def save (before after : FileTree) : IO Unit := do
  for (path, node) in contents before do
    let file := "/" ++ FilePath.join path
    match node, after.node? path with
    | .file _, none => IO.FS.removeFile file
    | _, _ => pure ()
  for (path, node) in contents after do
    let file := "/" ++ FilePath.join path
    match node, before.node? path with
    | .directory _, none => IO.FS.createDirAll file
    | .directory _, some _ => pure ()
    | .file content, some (.file old) =>
      unless content.toBytes.data == old.toBytes.data do IO.FS.writeBinFile file content.toBytes
    | .file content, _ => IO.FS.writeBinFile file content.toBytes

/-- How many processors there are; one if nobody tells. -/
def countProcessors : IO Nat := do
  try
    let lines ← IO.FS.lines "/proc/cpuinfo"
    return max 1 (lines.filter fun l => l.startsWith "processor").size
  catch _ => return 1

def machine : IO Machine := do
  let now ← Std.Time.Timestamp.now
  return ⟨← countProcessors, Int64.ofInt now.toSecondsSinceUnixEpoch.val⟩

def run (args : List String) : IO UInt32 := do
  let start ← IO.monoMsNow
  let before ← treeFor (Invocation.ofArguments? args)
  let (o, after) := runArguments (← machine) args (.start before)
  save before after.files
  let stop ← IO.monoMsNow
  IO.print (renderAll (stop - start) after.printed)
  if let some e := o.error then IO.eprintln ("Error: " ++ e.message)
  if o.code = 2 then IO.eprintln "usage: scan | file | catalog | init"
  return o.code.toUInt32

end RoutineParams.Main

def main (args : List String) : IO UInt32 := RoutineParams.Main.run args
