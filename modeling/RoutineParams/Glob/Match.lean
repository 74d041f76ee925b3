import RoutineParams.Glob.Pattern

/-!
# Matching paths

A pattern matches a path if its pieces, one after the other, cover all bytes of the path. Letters
of ASCII match in both cases. `Piece.ends` gives, for texts that a piece may begin at, the texts
that may be left after it; each text is the rest of one path, so there are never many.
-/

namespace RoutineParams.Glob

def slash : UInt8 := 0x2f

/-- A byte with the letters of ASCII in lower case. -/
def foldByte (b : UInt8) : UInt8 := if 0x41 ≤ b ∧ b ≤ 0x5a then b + 0x20 else b

def charBytes (c : Char) : List UInt8 := c.toString.toByteArray.toList

/-- The closed ranges of bytes that a range of characters stands for in a class. A character of
several bytes stands for each of them, and a range runs from the last byte of its first character
to the first byte of its last. -/
def byteRanges (r : Char × Char) : List (UInt8 × UInt8) :=
  let single (b : UInt8) : UInt8 × UInt8 := (b, b)
  if r.1 = r.2 then (charBytes r.1).map single
  else
    match (charBytes r.1).reverse, charBytes r.2 with
    | lo :: before, hi :: after => before.reverse.map single ++ (lo, hi) :: after.map single
    | _, _ => []

/-- Whether a byte is in a class, in either case. -/
def inClass (ranges : List (Char × Char)) (b : UInt8) : Bool :=
  let bytes := ranges.flatMap byteRanges
  let other :=
    if 0x41 ≤ b ∧ b ≤ 0x5a then b + 0x20
    else if 0x61 ≤ b ∧ b ≤ 0x7a then b - 0x20
    else b
  bytes.any fun r => (r.1 ≤ b && b ≤ r.2) || (r.1 ≤ other && other ≤ r.2)

/-- The text after the bytes `w`, up to case. -/
def afterBytes? : (w s : List UInt8) → Option (List UInt8)
  | [], s => some s
  | _ :: _, [] => none
  | a :: w, b :: s => if foldByte a = foldByte b then afterBytes? w s else none

/-- What is left of a text after any number of bytes that satisfy `p`. -/
def restsWhile (p : UInt8 → Bool) : List UInt8 → List (List UInt8)
  | [] => [[]]
  | b :: s => (b :: s) :: (if p b then restsWhile p s else [])

/-- What is left of a text after any bytes and a slash. -/
def restsAfterSlash : List UInt8 → List (List UInt8)
  | [] => []
  | b :: s => if b = slash then s :: restsAfterSlash s else restsAfterSlash s

mutual

/-- Whether a piece stands for nothing at all: alternatives none of which has content. -/
def Piece.isVoid : Piece → Bool
  | .alternatives branches => areVoid branches
  | _ => false

def isVoid : List Piece → Bool
  | [] => true
  | p :: ps => p.isVoid && isVoid ps

def areVoid : List (List Piece) → Bool
  | [] => true
  | b :: bs => isVoid b && areVoid bs

end

mutual

/-- What may be left after a piece that begins at one of the texts. -/
def Piece.ends (p : Piece) (starts : List (List UInt8)) : List (List UInt8) :=
  match p with
  | .literal c => starts.filterMap (afterBytes? (charBytes c))
  | .any =>
    starts.filterMap fun s =>
      match s with
      | b :: s => if b = slash then none else some s
      | [] => none
  | .star => (starts.flatMap (restsWhile (· != slash))).eraseDups
  | .anyAbove => (starts.flatMap fun s => s :: restsAfterSlash s).eraseDups
  | .anyBetween =>
    (starts.flatMap fun s =>
      match s with
      | b :: s => if b = slash then s :: restsAfterSlash s else []
      | [] => []).eraseDups
  | .anyBelow =>
    (starts.flatMap fun s =>
      match s with
      | b :: s => if b = slash then restsWhile (fun _ => true) s else []
      | [] => []).eraseDups
  | .oneOf negated ranges =>
    starts.filterMap fun s =>
      match s with
      | b :: s => if inClass ranges b != negated then some s else none
      | [] => none
  | .alternatives branches =>
    if areVoid branches then starts else (branchEnds branches starts).eraseDups

/-- What may be left after pieces that begin, one after the other, at one of the texts. -/
def ends (ps : List Piece) (starts : List (List UInt8)) : List (List UInt8) :=
  match ps with
  | [] => starts
  | p :: ps => ends ps (p.ends starts)

/-- What may be left after one of several branches, of which those without content are left out. -/
def branchEnds (bs : List (List Piece)) (starts : List (List UInt8)) : List (List UInt8) :=
  match bs with
  | [] => []
  | b :: bs => (if isVoid b then [] else ends b starts) ++ branchEnds bs starts

end

/-- Whether a pattern matches all of a path. Two stars alone match every path. -/
def Pattern.isMatch (p : Pattern) (path : String) : Bool :=
  match p.pieces with
  | [.anyAbove] => true
  | pieces => (ends pieces [path.toByteArray.toList]).contains []

end RoutineParams.Glob
