/-!
# Progress

A long scan says from time to time how far it has come: first at once, then not before a tenth of
a second has passed, and always when it is finished.
-/

namespace RoutineParams

/-- How far a scan has come. -/
structure ProgressEvent where
  processed : Nat
  total : Nat
deriving DecidableEq, Repr

/-- What a scan has said so far. -/
structure Progress where
  total : Nat
  /-- When it last said something, in milliseconds. -/
  lastEvent : Option Nat
deriving DecidableEq, Repr

namespace Progress

/-- The shortest time between two events, in milliseconds. -/
def interval : Nat := 100

def start (total : Nat) : Progress := ⟨total, none⟩

/-- Whether an event at the time `now` would come too early. -/
def isEarly (p : Progress) (now : Nat) : Bool :=
  match p.lastEvent with
  | some last => now - last < interval
  | none => false

/-- What is said when `processed` routines are done at the time `now`. -/
def report (p : Progress) (now processed : Nat) : Option ProgressEvent × Progress :=
  if p.isEarly now ∧ processed < p.total then (none, p)
  else (some ⟨processed, p.total⟩, { p with lastEvent := some now })

/-- What is said over a whole scan, where each report has a time and a number of routines. -/
def events (p : Progress) : List (Nat × Nat) → List (Option ProgressEvent)
  | [] => []
  | (now, processed) :: reports =>
    let (event, p) := p.report now processed
    event :: events p reports

end Progress

end RoutineParams
