import RoutineParams.LooseTables
import RoutineParams.Storage.Preparation
import RoutineParams.Storage.Reader
import RoutineParams.Storage.Writer

/-!
# Database files

What a database file holds, once it has been opened: pages, and the store that they hold. The store
answers all questions, and the pages tell the size of the file and its bytes. Pages that were made
otherwise, be it with a table, an index or a trigger more, hold no store; they answer for themselves.

    d.apply c                         what the change `c` leaves
    DatabaseFile.ofImage im           what the pages `im` hold
-/

namespace RoutineParams

open Storage

structure DatabaseFile where
  /-- What the pages hold, if a store holds it. -/
  store? : Option Store
  image : Image

namespace DatabaseFile

/-! ## Rows -/

def routineRow? : List Value → Option (RoutineKey × RoutineRow)
  | [.text database, .int id, .text name, .text code, .text definition] => do
    let kind ← [RoutineKind.procedure, .function].find? fun k => k.code == code
    some (⟨database, id⟩, ⟨name, kind, definition⟩)
  | _ => none

def parameterRow? : List Value → Option (ParameterKey × ParameterRow)
  | [.text database, .int id, .text name, .text default, .int time] =>
    some (⟨database, id, name⟩, ⟨default, time⟩)
  | _ => none

/-- Whether a file lists what making tables by the schemas of a store lists, and nothing else. Then
neither a trigger nor a condition that was added stands in the way of a change. -/
def listsStore (im : Image) : Bool :=
  ((im.tree Image.listingRoot).entries .table).all fun e =>
    (Image.listing? e.record).any fun l =>
      [TableSchema.routines, .parameters].any fun s =>
        l.table == s.name && s.made.contains (l.kind, l.name, l.command)

/-- The values in the rows of a table, if its indexes agree with them. -/
def rowsOf? (im : Image) (s : TableSchema) : Option (List (List Value)) := do
  let t ← im.table? s.name
  if t.indexes.all (im.keepsIndex t) then some ((im.rows t).map Row.values) else none

/-- The store that pages hold: the tables are as they are made, and so is all that is listed. -/
def storeOf? (im : Image) : Option Store := do
  if im.hasUtf8 && listsStore im then
    let routines ← (← rowsOf? im .routines).mapM routineRow?
    let parameters ← (← rowsOf? im .parameters).mapM parameterRow?
    some ⟨SortedTable.putAll RoutineKey.cmp routines [],
      SortedTable.putAll ParameterKey.cmp parameters []⟩
  else none

def ofImage (im : Image) : DatabaseFile := ⟨storeOf? im, im⟩

/-! ## Questions -/

/-- The routines of the database `name` whose text has an at sign, in the order of their numbers. -/
def routinesOf (d : DatabaseFile) (name : String) : Except Fault (List Routine) :=
  match d.store? with
  | some s => .ok (s.routinesOf name)
  | none => Loose.routinesOf d.image name

/-- The parameters of the database `name`, in the order of their numbers and names. -/
def parametersOf (d : DatabaseFile) (name : String) : Except Fault (List StoredParameter) :=
  match d.store? with
  | some s => .ok (s.parametersOf name)
  | none => Loose.parametersOf d.image name

def stats (d : DatabaseFile) : Except Fault StoreStats :=
  match d.store? with
  | some s => .ok s.stats
  | none => Loose.stats d.image

/-! ## Changes -/

/-- What a change leaves. A store takes every change. -/
def apply (d : DatabaseFile) (c : StoreChange) : Except Fault DatabaseFile :=
  match d.store? with
  | some s => .ok ⟨some (s.apply c), (Loose.apply d.image c).toOption.getD d.image⟩
  | none => (Loose.apply d.image c).map fun image => ⟨none, image⟩

def size (d : DatabaseFile) : Nat := d.image.size

end DatabaseFile

end RoutineParams
