import RoutineParams.Batch
import RoutineParams.Digest.Md5
import RoutineParams.Header
import RoutineParams.Parameter
import RoutineParams.Text.Decimal

/-!
# Routines of a script

Every batch of a script with a header defines a routine. A routine of a script is known by a
number that is drawn from the script's path and the place of the batch, so that it stays the same
from run to run.
-/

namespace RoutineParams

/-- A procedure or function with its whole text. -/
structure Routine where
  objectId : ObjectId
  name : String
  kind : RoutineKind
  definition : String
deriving DecidableEq, Repr

/-- What the number of a batch's routine is drawn from. -/
def routineKey (path : String) (index : Nat) : String :=
  path ++ "#" ++ String.ofList (decimal index)

/-- The number of the routine that the batch `index` of the script `path` defines: the low 31 bits
of a digest. -/
def objectIdOf (path : String) (index : Nat) : ObjectId :=
  let state := Md5.digest (routineKey path index).toByteArray.toList
  Int64.ofNat (state.a.toNat % 0x80000000)

def routineOfBatch? (path : String) (index : Nat) (batch : List Char) : Option Routine := do
  let header ← headerFrom? false batch
  some ⟨objectIdOf path index, header.name, header.kind, String.ofList (trimBlank batch)⟩

/-- The routines that the batches of the script `path` define. Batches without a header count
towards the places of the others. -/
def routinesOfScript (path script : String) : List Routine :=
  (batches script.toList).zipIdx.filterMap fun (batch, index) => routineOfBatch? path index batch

end RoutineParams
