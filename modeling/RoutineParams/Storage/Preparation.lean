import RoutineParams.Storage.Fault
import RoutineParams.Storage.Image

/-!
# Preparing files

Before a database is used, its tables and indexes are made as far as they are not there. A table
that is there may have been made with other columns; then those of the index must be among them. No
two things that are listed share a name.
-/

namespace RoutineParams.Storage

/-- What changes an image, or gives the fault that stopped it. What was changed before stays. -/
abbrev ImageChange := ExceptT Fault (StateM Image) Unit

namespace Image

def lists (im : Image) (kinds : List String) (name : String) : Bool :=
  im.listings.any fun l => kinds.contains l.kind && sameName l.name name

/-- The columns of the index that the table lacks, each with those before it. -/
def lacking (im : Image) (s : TableSchema) : List (String × List String) :=
  let isThere (column : String) : Bool :=
    (im.table? s.name).any fun t => (t.form.place? column).isSome
  (s.indexed.zipIdx.map fun (c, n) => (c, s.indexed.take n)).filter fun x => !isThere x.1

/-- Makes a table unless there is one. `write` tells whether the file can be changed. -/
def prepareTable (write : Except Fault Unit) (s : TableSchema) : ImageChange := do
  let im ← get
  if ¬im.lists ["table", "view"] s.name then
    if im.lists ["index"] s.name then throw (.nameTaken "index" s.name)
    MonadExcept.ofExcept write
    modify fun im => im.makeTable s

/-- Makes the index of a table unless there is one of that name. -/
def prepareIndex (write : Except Fault Unit) (s : TableSchema) : ImageChange := do
  let im ← get
  if im.lists ["view"] s.name then throw .indexOfView
  if im.lists ["table", "view"] s.indexName then throw (.nameTaken "table" s.indexName)
  if ¬im.lists ["index"] s.indexName then
    match im.lacking s with
    | (column, before) :: _ =>
      throw (.noColumn column s.indexRequest (s.indexedPlace before))
    | [] =>
      MonadExcept.ofExcept write
      modify fun im => im.makeIndex s

/-- Makes both tables and their indexes, as far as they are not there. -/
def prepare (write : Except Fault Unit) : ImageChange := do
  prepareTable write .routines
  prepareIndex write .routines
  prepareTable write .parameters
  prepareIndex write .parameters

/-- A file with both tables and nothing in them. -/
def prepared : Image := ((ExceptT.run (prepare (.ok ()))).run (fresh true)).2

end Image

end RoutineParams.Storage
