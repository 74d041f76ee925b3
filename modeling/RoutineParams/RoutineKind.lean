import RoutineParams.Text.Blank

/-!
# Kinds of routines

A routine is a procedure or a function. A catalog knows the kinds by their codes.

    RoutineKind.ofCode? k.code = some k                                 (ofCode?_code)
-/

namespace RoutineParams

inductive RoutineKind where
  | procedure | function
deriving DecidableEq, Repr

namespace RoutineKind

def label : RoutineKind → String
  | procedure => "procedure"
  | function => "function"

/-- The kind as a catalog holds it. -/
def code : RoutineKind → String
  | procedure => "P"
  | function => "FN"

def ofLabel? (s : String) : Option RoutineKind :=
  [procedure, function].find? fun k => k.label == s

/-- The kind with the code `s`, around which blanks do not count. -/
def ofCode? (s : String) : Option RoutineKind :=
  let code := String.ofList (trimBlank s.toList)
  [procedure, function].find? fun k => k.code == code

theorem ofCode?_code (k : RoutineKind) : ofCode? k.code = some k := by
  cases k <;> decide +kernel

end RoutineKind

end RoutineParams
