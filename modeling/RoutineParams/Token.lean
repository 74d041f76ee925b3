import RoutineParams.Kind

/-!
# Tokens and their roles

A token is a kind and the piece of text it was cut from. The scan of a parameter list asks only
for a token's role, which its kind decides, with one exception: the identifier `RETURNS` ends the
list.
-/

namespace RoutineParams

/-- A piece of a routine's text and its lexical category. -/
structure Token where
  kind : Kind
  text : String
deriving DecidableEq, Repr

/-- What a token means to the scan of a parameter list. -/
inductive Role where
  /-- Ends the parameter list. -/
  | terminator
  /-- Says nothing about parameters. -/
  | ignorable
  /-- Opens the declaration of a parameter. -/
  | parameterMarker
  /-- May be a default value. -/
  | literalCandidate
  | other
deriving DecidableEq, Repr

/-- The role that a kind has whatever the text. -/
def Kind.role : Kind → Role
  | .begin | .declare | .select | .set | .with => .terminator
  | .blockComment | .lineComment | .blank | .as | .create | .procedure | .function => .ignorable
  | .localVariable => .parameterMarker
  | .string | .hex | .identifier | .integer | .money | .null | .numeric | .real
  | .nationalString => .literalCandidate
  | _ => .other

/-- Equality of texts up to the case of ASCII letters. -/
def eqIgnoreCase (s t : String) : Bool :=
  s.toList.map Char.toLower == t.toList.map Char.toLower

namespace Token

/-- The word before the type of a function's result. -/
def isReturns (t : Token) : Bool := t.kind == .identifier && eqIgnoreCase t.text "RETURNS"

/-- The sign between a parameter and its default. -/
def isAssignment (t : Token) : Bool := t.kind == .equals

/-- The role of a token in a parameter list. -/
def role (t : Token) : Role := if t.isReturns then .terminator else t.kind.role

end Token

end RoutineParams
