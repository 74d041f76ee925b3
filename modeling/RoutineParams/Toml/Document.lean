/-!
# TOML documents

The values of TOML and the tables that a document builds up. A table knows how it came to be,
since that decides how it may be extended: by a header or by dotted keys, once or again.

    addUnder header path k v t        the entry `path.k = v` below the header
    openTable above k t               the header `[above.k]`
    openElement above k t             the header `[[above.k]]`

Each gives nothing if the document `t` may not be extended so.
-/

namespace RoutineParams.Toml

/-- How a table came to be. -/
inductive Origin where
  /-- By a header of its own. -/
  | header
  /-- On the way to another header. -/
  | passed
  /-- By a dotted key. -/
  | dotted
  /-- Between braces. -/
  | braces
deriving DecidableEq, Repr

/-- A value of a document. Fractions and dates are kept as they are written. -/
inductive Value where
  | string (s : String)
  | integer (n : Int)
  | fraction (text : String)
  | boolean (b : Bool)
  | date (text : String)
  | array (items : List Value)
  | table (origin : Origin) (entries : List (String × Value))
  /-- Tables that are opened one after the other under the same double header. -/
  | elements (tables : List (List (String × Value)))
deriving Repr, Inhabited

abbrev Entries := List (String × Value)

def maxInteger : Nat := 0x7fffffffffffffff

/-- Gives the key `k` the value `v` in place of the one that it has. -/
def Entries.replace (t : Entries) (k : String) (v : Value) : Entries :=
  t.map fun e => if e.1 = k then (k, v) else e

/-- Whether a table of this origin may be reached by a dotted key. -/
def Origin.isOpen : Origin → Bool
  | .passed | .dotted => true
  | .header | .braces => false

/-- Changes by `f` the table that lies at `path` below the table `t`. Tables on the way are made
where there are none; of elements, the last one is meant. -/
def Entries.changeAt (byDots : Bool) (f : Origin → Entries → Option Entries) :
    List String → Origin → Entries → Option Entries
  | [], origin, t => f origin t
  | k :: path, _, t =>
    match t.lookup k with
    | none =>
      let origin := if byDots then .dotted else .passed
      (changeAt byDots f path origin []).map fun sub => t ++ [(k, .table origin sub)]
    | some (.table .braces _) => none
    | some (.table origin sub) =>
      if byDots ∧ ¬origin.isOpen then none
      else (changeAt byDots f path origin sub).map fun sub => t.replace k (.table origin sub)
    | some (.elements tables) =>
      match tables.reverse with
      | [] => none
      | last :: before =>
        (changeAt byDots f path .header last).map fun last =>
          t.replace k (.elements (last :: before).reverse)
    | some _ => none

def Entries.add (k : String) (v : Value) (t : Entries) : Option Entries :=
  match t.lookup k with
  | none => some (t ++ [(k, v)])
  | some _ => none

/-- Adds the entry `path.k = v`. A table that is named by dots is not one that has, or is on the
way to, a header. -/
def Entries.addDotted (path : List String) (k : String) (v : Value) (t : Entries) :
    Option Entries :=
  match path with
  | [] => t.add k v
  | path =>
    t.changeAt true (fun origin t => if origin = .dotted then t.add k v else none) path .header

/-- Adds the entry `path.k = v` to the table that a header opened last. -/
def Entries.addUnder (header : List String) (path : List String) (k : String) (v : Value)
    (t : Entries) : Option Entries :=
  t.changeAt false (fun _ t => t.addDotted path k v) header .header

/-- Opens the table `above.k` by a header. It must be new, or only have been passed. -/
def Entries.openTable (above : List String) (k : String) (t : Entries) : Option Entries :=
  t.changeAt false (fun _ t =>
    match t.lookup k with
    | none => some (t ++ [(k, .table .header [])])
    | some (.table .passed sub) => some (t.replace k (.table .header sub))
    | some _ => none) above .header

/-- Opens a further element of `above.k` by a double header. -/
def Entries.openElement (above : List String) (k : String) (t : Entries) : Option Entries :=
  t.changeAt false (fun _ t =>
    match t.lookup k with
    | none => some (t ++ [(k, .elements [[]])])
    | some (.elements tables) => some (t.replace k (.elements (tables ++ [[]])))
    | some _ => none) above .header

end RoutineParams.Toml
