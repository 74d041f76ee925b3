import RoutineParams.FileTree
import RoutineParams.Output

/-!
# Actions

An action works on a session, which is the files that it can see and what was printed so far, and
gives an answer or an error. What it has changed or printed before an error stays.

    a.result s                        the answer of `a` on the session `s`, and the session after it
-/

namespace RoutineParams

/-- The files that actions work on, and the pieces that were printed so far, in order. -/
structure Session where
  files : FileTree
  printed : List Printed

def Session.start (files : FileTree) : Session := ⟨files, []⟩

/-- What works on a session. -/
abbrev Action (α : Type) := ExceptT Error (StateM Session) α

namespace Action

/-- What an action gives and the session that it leaves. -/
def result {α : Type} (a : Action α) (s : Session) : Except Error α × Session :=
  (ExceptT.run a).run s

/-- An answer that depends on the files only, or an error. -/
def ask {α : Type} (f : FileTree → Except Error α) : Action α := do
  match f (← get).files with
  | .ok a => pure a
  | .error e => throw e

/-- A change of the files that cannot fail. -/
def modifyFiles (f : FileTree → FileTree) : Action Unit :=
  modify fun s => { s with files := f s.files }

/-- A change of the files, whose fault becomes the error `asError fault`. -/
def change {α : Type} (asError : FileFault → Error) (c : FileChange α) : Action α := do
  let (r, t) := (ExceptT.run c).run (← get).files
  modifyFiles fun _ => t
  match r with
  | .ok a => pure a
  | .error fault => throw (asError fault)

def print (p : Printed) : Action Unit := modify fun s => { s with printed := s.printed ++ [p] }

/-- An action whose errors arise in a context. -/
def within {α : Type} (context : Context) (a : Action α) : Action α :=
  tryCatch a fun e => throw (.within context e)

end Action

end RoutineParams
