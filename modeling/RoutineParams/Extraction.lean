import RoutineParams.Lexing
import RoutineParams.Parameter

/-!
# Extraction

From the text of a routine to its parameters: the tokens of the text, whole or cut short by a
fault, are scanned for declarations.
-/

namespace RoutineParams

structure Extraction where
  objectId : ObjectId
  parameters : List Parameter
  diagnostic : Option Diagnostic
  stop : Stop
deriving DecidableEq, Repr

/-- Whether the parameters were read from only a part of the text. -/
def Extraction.isPartial (e : Extraction) : Bool := e.diagnostic.isSome

/-- The parameters of the routine `id` with the text `definition`. -/
def extract (id : ObjectId) (definition : String) : Extraction :=
  let lexed := lex definition
  let scan := scanTokens id lexed.tokens
  ⟨id, scan.parameters, lexed.diagnostic, scan.stop⟩

end RoutineParams
