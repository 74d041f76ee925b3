import RoutineParams.Routine
import RoutineParams.SortedTable

/-!
# The store

A database holds two tables: the routines of each named database by their numbers, and their
parameters by number and name. Routines are added to those stored before; the parameters of a
database are replaced all at once.

    apply c                           what a change leaves
    storeRoutines name rs             adds or replaces the routines `rs`
    storeParameters now name ps       makes `ps` the parameters of `name`
    routinesOf name                   the routines of `name` that may have parameters
    parametersOf name                 the parameters of `name`
-/

namespace RoutineParams

/-- Where a routine is stored. -/
structure RoutineKey where
  database : String
  objectId : ObjectId
deriving DecidableEq, Repr

/-- Where a parameter is stored. -/
structure ParameterKey where
  database : String
  objectId : ObjectId
  name : String
deriving DecidableEq, Repr

def RoutineKey.cmp : RoutineKey → RoutineKey → Ordering :=
  compareLex (compareOn (·.database)) (compareOn (·.objectId))

def ParameterKey.cmp : ParameterKey → ParameterKey → Ordering :=
  compareLex (compareOn (·.database)) (compareLex (compareOn (·.objectId)) (compareOn (·.name)))

/-- What is stored of a routine besides its key. -/
structure RoutineRow where
  name : String
  kind : RoutineKind
  definition : String
deriving DecidableEq, Repr

/-- What is stored of a parameter besides its key. -/
structure ParameterRow where
  default : String
  /-- When the parameter was stored, in seconds. -/
  extractedAt : Int64
deriving DecidableEq, Repr

structure StoredParameter where
  databaseName : String
  objectId : ObjectId
  name : String
  default : String
  extractedAt : Int64
deriving DecidableEq, Repr

structure Store where
  routines : SortedTable RoutineKey RoutineRow
  parameters : SortedTable ParameterKey ParameterRow
deriving DecidableEq, Repr

inductive StoreChange where
  | routines (name : String) (rs : List Routine)
  | parameters (now : Int64) (name : String) (ps : List Parameter)

/-- Whether a change leaves every store as it is. -/
def StoreChange.isNothing : StoreChange → Bool
  | routines _ rs => rs.isEmpty
  | parameters _ _ _ => false

structure StoreStats where
  routines : Nat
  parameters : Nat
  withDefaults : Nat
  databases : List String
deriving DecidableEq, Repr

namespace Store

def empty : Store := ⟨[], []⟩

def routineRow (name : String) (r : Routine) : RoutineKey × RoutineRow :=
  (⟨name, r.objectId⟩, ⟨r.name, r.kind, r.definition⟩)

def parameterRow (now : Int64) (name : String) (p : Parameter) : ParameterKey × ParameterRow :=
  (⟨name, p.objectId, p.name⟩, ⟨p.default, now⟩)

/-- Adds routines to the database `name`; one with the number of a stored routine replaces it. -/
def storeRoutines (s : Store) (name : String) (rs : List Routine) : Store :=
  { s with routines := s.routines.putAll RoutineKey.cmp (rs.map (routineRow name)) }

/-- Makes `ps` the parameters of the database `name`, instead of those stored before. -/
def storeParameters (s : Store) (now : Int64) (name : String) (ps : List Parameter) : Store :=
  let others := s.parameters.filter fun row => row.1.database != name
  { s with parameters :=
      SortedTable.putAll ParameterKey.cmp (ps.map (parameterRow now name)) others }

def apply (s : Store) : StoreChange → Store
  | .routines name rs => s.storeRoutines name rs
  | .parameters now name ps => s.storeParameters now name ps

def routineOf (row : RoutineKey × RoutineRow) : Routine :=
  ⟨row.1.objectId, row.2.name, row.2.kind, row.2.definition⟩

def parameterOf (row : ParameterKey × ParameterRow) : StoredParameter :=
  ⟨row.1.database, row.1.objectId, row.1.name, row.2.default, row.2.extractedAt⟩

/-- The routines of the database `name` whose text has an at sign, in the order of their numbers. -/
def routinesOf (s : Store) (name : String) : List Routine :=
  (s.routines.filter fun row => row.1.database == name && row.2.definition.toList.contains '@').map
    routineOf

/-- The parameters of the database `name`, in the order of their numbers and names. -/
def parametersOf (s : Store) (name : String) : List StoredParameter :=
  (s.parameters.filter fun row => row.1.database == name).map parameterOf

/-- How much the store holds. The databases are those with a routine or a parameter. -/
def stats (s : Store) : StoreStats where
  routines := s.routines.length
  parameters := s.parameters.length
  withDefaults := (s.parameters.filter fun row => !row.2.default.isEmpty).length
  databases :=
    let names := s.routines.map (·.1.database) ++ s.parameters.map (·.1.database)
    (SortedTable.putAll compare (names.map fun name => (name, ())) []).map (·.1)

end Store

end RoutineParams
