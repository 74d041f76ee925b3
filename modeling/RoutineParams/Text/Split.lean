/-!
# Splitting texts

The pieces of a text between the places where a character stands.
-/

namespace RoutineParams

/-- The pieces of a text between the characters `sep`, where `piece` (last character first) is
already read of the first one. -/
def splitFrom (sep : Char) (piece : List Char) : List Char → List (List Char)
  | [] => [piece.reverse]
  | c :: s =>
    if c = sep then piece.reverse :: splitFrom sep [] s else splitFrom sep (c :: piece) s

def splitAt (sep : Char) (s : List Char) : List (List Char) := splitFrom sep [] s

end RoutineParams
