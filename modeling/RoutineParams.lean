import RoutineParams.Json.Forms
import RoutineParams.Main
import RoutineParams.Progress
import RoutineParams.Json.Reader
import RoutineParams.Proofs.Extent
import RoutineParams.Proofs.Places
import RoutineParams.Proofs.Lossless
import RoutineParams.Proofs.Characters
import RoutineParams.Proofs.Declarations
import RoutineParams.Proofs.Reading
import RoutineParams.Proofs.Gaps
import RoutineParams.Proofs.Keywords
import RoutineParams.Proofs.Rendering
import RoutineParams.Proofs.Signature
import RoutineParams.Proofs.Declared
import RoutineParams.Proofs.Recovery
import RoutineParams.Proofs.Continuation
import RoutineParams.Proofs.Faults
import RoutineParams.Proofs.Occurrences
import RoutineParams.Proofs.Agreement
import RoutineParams.Proofs.Changes
import RoutineParams.Proofs.Preparing
import RoutineParams.Proofs.Catalogs
import RoutineParams.Proofs.Printing
import RoutineParams.Proofs.Layout
import RoutineParams.Proofs.Splitting
import RoutineParams.Proofs.Keys
import RoutineParams.Proofs.Outputs
import RoutineParams.Proofs.ConfigFiles
import RoutineParams.Proofs.Scans
import RoutineParams.Proofs.SingleFiles
import RoutineParams.Proofs.Runs
import RoutineParams.Proofs.Unfinished
import RoutineParams.Proofs.Logs
import RoutineParams.Proofs.Marks
import RoutineParams.Proofs.Accesses
import RoutineParams.Proofs.Failures
import RoutineParams.Proofs.Filters
import RoutineParams.Proofs.Comments
import RoutineParams.Proofs.HeaderNames
import RoutineParams.Proofs.ByteIndex
import RoutineParams.Proofs.HeaderTokens
import RoutineParams.Proofs.ReservedWords
import RoutineParams.Proofs.Elsewhere
import RoutineParams.Proofs.Repeats
