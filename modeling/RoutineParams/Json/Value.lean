/-!
# JSON values

The values of JSON. A number is either whole or kept as it was written, since nothing here
computes with fractions. The members of an object have distinct names.

Structured values are read from an object by the names of their fields, or from an array by their
order.
-/

namespace RoutineParams

inductive Json where
  | null
  | bool (b : Bool)
  | int (n : Int)
  /-- A number that is not written as a whole one. -/
  | decimal (text : String)
  | str (s : String)
  | arr (items : List Json)
  | obj (members : List (String × Json))
deriving Repr, Inhabited

namespace Json

/-- The member `key`, `null` where there is none. -/
def get (j : Json) (key : String) : Json :=
  match j with
  | .obj members => (members.lookup key).getD .null
  | _ => .null

/-- Puts a member into an object, in place of one of the same name. -/
def put (members : List (String × Json)) (key : String) (value : Json) : List (String × Json) :=
  members.filter (fun m => m.1 != key) ++ [(key, value)]

def str? : Json → Option String
  | .str s => some s
  | _ => none

def int? : Json → Option Int
  | .int n => some n
  | _ => none

/-- A whole number of 64 bits with a sign. -/
def int64? (j : Json) : Option Int64 := do
  let n ← j.int?
  if Int64.minValue.toInt ≤ n ∧ n ≤ Int64.maxValue.toInt then some (Int64.ofInt n) else none

/-- A whole number of 64 bits without a sign. -/
def uint64? (j : Json) : Option UInt64 := do
  let n ← j.int?
  if 0 ≤ n ∧ n < UInt64.size then some (UInt64.ofNat n.toNat) else none

/-- An array whose items are all read by `read`. -/
def list? {α : Type} (read : Json → Option α) : Json → Option (List α)
  | .arr items => items.mapM read
  | _ => none

/-- A value that may be `null`. -/
def optional? {α : Type} (read : Json → Option α) : Json → Option (Option α)
  | .null => some none
  | j => (read j).map some

/-- The fields `keys` of a structured value: members by name, further ones being passed over, or
the items of an array in order, which has no more than the fields. -/
def fields? (keys : List String) : Json → Option (List (Option Json))
  | .obj members => some (keys.map fun key => members.lookup key)
  | .arr items =>
    if items.length ≤ keys.length then
      some (items.map some ++ List.replicate (keys.length - items.length) none)
    else none
  | _ => none

/-- The one of several names that a value stands for: a text, or an object whose one member has
that name and is `null`. -/
def name? : Json → Option String
  | .str s => some s
  | .obj [(s, .null)] => some s
  | _ => none

end Json

end RoutineParams
