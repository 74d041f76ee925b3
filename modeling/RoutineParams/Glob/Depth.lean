import RoutineParams.Glob.Match

/-!
# How deep patterns are

A pattern nests: pieces that follow each other lie in a sequence, alternatives lie in a group and,
if they are several, in a choice, and what repeats lies in a repetition. Its depth is how many of
these lie around each other. Patterns that are matched together may be up to `maxDepth` deep.

    tooDeep? ps = some i     the pattern at `i` is the first one that is too deep
-/

namespace RoutineParams.Glob

def maxDepth : Nat := 250

/-- How many parts a piece adds to a sequence: one for every byte of a character, and a slash and
what follows it for what lies below. -/
def Piece.width : Piece → Nat
  | .literal c => (charBytes c).length
  | .anyBelow => 2
  | p => if p.isVoid then 0 else 1

def width (ps : List Piece) : Nat := ps.foldl (fun n p => n + p.width) 0

/-- The level that a sequence of several parts adds. -/
def sequenceLevel (ps : List Piece) : Nat := if 1 < width ps then 1 else 0

/-- The level that a choice between several branches adds. -/
def choiceLevel (bs : List (List Piece)) : Nat := if 1 < bs.countP (!isVoid ·) then 1 else 0

mutual

/-- How deep a piece is. A class of several ranges nests once more than a class of one, and
directories at the front or in between are a choice of sequences. -/
def Piece.depth (p : Piece) : Nat :=
  match p with
  | .literal _ => 0
  | .any | .anyBelow => 1
  | .star => 2
  | .anyAbove | .anyBetween => 4
  | .oneOf _ ranges => if 1 < (ranges.flatMap byteRanges).length then 2 else 1
  | .alternatives branches =>
    if areVoid branches then 0 else 1 + choiceLevel branches + branchDepth branches

def piecesDepth (ps : List Piece) : Nat :=
  match ps with
  | [] => 0
  | p :: ps => max p.depth (piecesDepth ps)

def branchDepth (bs : List (List Piece)) : Nat :=
  match bs with
  | [] => 0
  | b :: bs => max (sequenceLevel b + piecesDepth b) (branchDepth bs)

end

/-- How deep a pattern is: it lies in a sequence that begins and ends where the path does. -/
def Pattern.depth (p : Pattern) : Nat := 1 + piecesDepth p.pieces

/-- Where the first of the patterns is that is too deep. -/
def tooDeep? (ps : List Pattern) : Option Nat := ps.findIdx? (maxDepth < ·.depth)

end RoutineParams.Glob
