import RoutineParams.Text.Split

/-!
# Paths of files

A path is a text of names between slashes. It starts at the root if a slash is in front, and else
where the reader stands. Empty names and single dots mean nothing, and two dots lead up.
-/

namespace RoutineParams.FilePath

/-- The names of a path, empty ones included. -/
def names (path : String) : List String := (splitAt '/' path.toList).map String.ofList

def isAbsolute (path : String) : Bool := path.toList.head? == some '/'

/-- Names with slashes between them. -/
def join (names : List String) : String := "/".intercalate names

/-- Whether a name leads nowhere else. -/
def isIdle (name : String) : Bool := name == "" || name == "."

/-- The names of a path that mean something. -/
def parts (path : String) : List String := (names path).filter fun n => !isIdle n

/-- The paths to the parts of a path with these names, both the last one first. -/
def prefixes : List String → List String
  | [] => []
  | name :: above =>
    if isIdle name then prefixes above else join (name :: above).reverse :: prefixes above

/-- The paths of the parts above the last one, the nearest first. -/
def ancestors (path : String) : List String := (prefixes (names path).reverse).tail

/-- The path without its last part; nothing if it has no parts. -/
def parent? (path : String) : Option String :=
  if parts path = [] then none
  else some ((ancestors path).headD (if isAbsolute path then "/" else ""))

/-- The last part of a path, unless it leads up. -/
def fileName? (path : String) : Option String :=
  match (parts path).getLast? with
  | some ".." => none
  | name => name

end RoutineParams.FilePath
