import RoutineParams.Token

/-!
# The parameters of a routine

The tokens of a routine are read once, left to right. A variable opens the declaration of a
parameter, the sign `=` makes it wait for a default, and of the literals that follow the last one
counts. The declaration ends with the next variable, and the list with the first terminator.

    scanTokens id tokens              the parameters in order, and where the scan stopped
-/

namespace RoutineParams

/-! ## Algorithm -/

/-- The number by which a routine is known in its database. -/
abbrev ObjectId := Int64

/-- A parameter of a routine. Without a default its `default` is empty. -/
structure Parameter where
  objectId : ObjectId
  name : String
  default : String
deriving DecidableEq, Repr

def Parameter.hasDefault (p : Parameter) : Bool := !p.default.isEmpty

/-- Where a scan stopped. -/
inductive Stop where
  | endOfTokens
  | terminator (index : Nat) (text : String)
deriving DecidableEq, Repr

/-- The outcome of a scan. -/
structure Scan where
  parameters : List Parameter
  stop : Stop
deriving DecidableEq, Repr

/-- A declaration that is still open. No parameter has an empty name: such a name stands for
there being no declaration. -/
structure Declaration where
  name : String
  awaiting : Bool
  default : String
deriving DecidableEq, Repr

namespace Declaration

def none : Declaration := ⟨"", false, ""⟩

/-- The declaration that a variable opens. -/
def opened (name : String) : Declaration := ⟨name, false, ""⟩

/-- After the sign `=`. -/
def awaitDefault (d : Declaration) : Declaration := { d with awaiting := true }

/-- After a literal: it is the default if one is awaited, in place of any before. -/
def offer (d : Declaration) (literal : String) : Declaration :=
  if d.awaiting then { d with default := literal } else d

/-- The parameter that a declaration makes, if there is a declaration. -/
def close (d : Declaration) (id : ObjectId) : List Parameter :=
  if d.name = "" then [] else [⟨id, d.name, d.default⟩]

end Declaration

/-- Scans `tokens` with the declaration `d` open, the parameters `done` (last one first) complete,
and `index` tokens already read. -/
def scanFrom (id : ObjectId) (d : Declaration) (done : List Parameter) (index : Nat) :
    List Token → Scan
  | [] => ⟨(d.close id ++ done).reverse, .endOfTokens⟩
  | t :: tokens =>
    match t.role with
    | .terminator => ⟨(d.close id ++ done).reverse, .terminator index t.text⟩
    | .ignorable => scanFrom id d done (index + 1) tokens
    | .parameterMarker => scanFrom id (.opened t.text) (d.close id ++ done) (index + 1) tokens
    | .literalCandidate => scanFrom id (d.offer t.text) done (index + 1) tokens
    | .other =>
      scanFrom id (if t.isAssignment then d.awaitDefault else d) done (index + 1) tokens

/-- The parameters that a routine's tokens declare. -/
def scanTokens (id : ObjectId) (tokens : List Token) : Scan := scanFrom id .none [] 0 tokens

end RoutineParams
