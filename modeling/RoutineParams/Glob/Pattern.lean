/-!
# Glob patterns

A pattern is a list of pieces that match one after the other. `Pattern.parse` reads its text:

    ?           one byte that is no slash
    *           any bytes but slashes
    **          any bytes, between slashes or the ends of the pattern or of an alternative
    [a-z]       one byte of a class; after `!` or `^`, one byte outside it
    {a,b}       one of several patterns
    \c          the character `c`
-/

namespace RoutineParams.Glob

inductive Piece where
  | literal (c : Char)
  /-- One byte but a slash. -/
  | any
  /-- Any bytes but slashes. -/
  | star
  /-- Directories at the front, or none. -/
  | anyAbove
  /-- A slash, or directories between slashes. -/
  | anyBetween
  /-- A slash and anything below. -/
  | anyBelow
  | oneOf (negated : Bool) (ranges : List (Char × Char))
  | alternatives (branches : List (List Piece))
deriving Repr

structure Pattern where
  pieces : List Piece
deriving Repr

inductive Fault where
  | unclosedClass
  | invalidRange (first last : Char)
  | unopenedAlternatives
  | unclosedAlternatives
  | danglingEscape
deriving DecidableEq, Repr

def Fault.message : Fault → String
  | .unclosedClass => "unclosed character class; missing ']'"
  | .invalidRange first last =>
    "invalid range; '" ++ first.toString ++ "' > '" ++ last.toString ++ "'"
  | .unopenedAlternatives =>
    "unopened alternate group; missing '\x7b' (maybe escape '\x7d' with '[\x7d]'?)"
  | .unclosedAlternatives =>
    "unclosed alternate group; missing '\x7d' (maybe escape '\x7b' with '[\x7b]'?)"
  | .danglingEscape => "dangling '\\'"

/-- A class that is being read: its ranges, the last one first, whether no character of it is
read yet, and whether a range waits for its last character. -/
structure OpenClass where
  negated : Bool
  ranges : List (Char × Char)
  isFirst : Bool
  inRange : Bool

/-- A group of alternatives that is being read: the complete ones, the last one first. -/
abbrev OpenGroup := List (List Piece)

/-- Where in a pattern the reader is: the pieces of the current alternative, the last one first,
and for every open group the alternatives before, with the pieces around the group. -/
structure Reading where
  pieces : List Piece
  groups : List (OpenGroup × List Piece)

namespace Reading

def push (r : Reading) (p : Piece) : Reading := { r with pieces := p :: r.pieces }

def inGroup (r : Reading) : Bool := !r.groups.isEmpty

def openGroup (r : Reading) : Reading := ⟨[], ([], r.pieces) :: r.groups⟩

/-- Ends an alternative. A comma outside braces stands for itself. -/
def comma (r : Reading) : Reading :=
  match r.groups with
  | [] => r.push (.literal ',')
  | (done, around) :: groups => ⟨[], (r.pieces.reverse :: done, around) :: groups⟩

def closeGroup (r : Reading) : Except Fault Reading :=
  match r.groups with
  | [] => .error .unopenedAlternatives
  | (done, around) :: groups =>
    .ok ⟨.alternatives (r.pieces.reverse :: done).reverse :: around, groups⟩

/-- Two stars that do not stand alone. -/
def twoStars (r : Reading) : Reading := (r.push .star).push .star

/-- Puts `p`, for directories, in place of the piece before it. Such a piece itself stays. -/
def overSlash (r : Reading) (p : Piece) : Reading :=
  match r.pieces with
  | .anyAbove :: _ | .anyBelow :: _ => r
  | _ :: pieces => { r with pieces := p :: pieces }
  | [] => { r with pieces := [p] }

/-- Whether two stars after the character `prev` stand alone to their left. -/
def aloneLeft (r : Reading) (prev : Option Char) : Bool :=
  prev == some '/' || (r.inGroup && (prev == some ',' || prev == some '\x7b'))

end Reading

/-- Adds a character to a class, or gives the complete class. -/
def OpenClass.step (k : OpenClass) (c : Char) : Except Fault (OpenClass ⊕ Piece) :=
  let close (ranges : List (Char × Char)) : Piece := .oneOf k.negated ranges.reverse
  if c = ']' ∧ ¬k.isFirst then
    .ok (.inr (close (if k.inRange then ('-', '-') :: k.ranges else k.ranges)))
  else if c = '-' ∧ ¬k.isFirst ∧ ¬k.inRange then
    .ok (.inl { k with inRange := true })
  else if k.inRange then
    match k.ranges with
    | (first, _) :: ranges =>
      if c < first then .error (.invalidRange first c)
      else .ok (.inl ⟨k.negated, (first, c) :: ranges, false, false⟩)
    | [] => .ok (.inl ⟨k.negated, [(c, c)], false, false⟩)
  else .ok (.inl ⟨k.negated, (c, c) :: k.ranges, false, false⟩)

mutual

/-- Reads a pattern on, after the character `prev`. -/
def readFrom (r : Reading) (prev : Option Char) : List Char → Except Fault Pattern
  | [] => if r.inGroup then .error .unclosedAlternatives else .ok ⟨r.pieces.reverse⟩
  | '?' :: s => readFrom (r.push .any) (some '?') s
  | '*' :: '*' :: s =>
    if r.pieces.isEmpty then
      match s with
      | [] => readFrom (r.push .anyAbove) (some '*') []
      | '/' :: s => readFrom (r.push .anyAbove) (some '/') s
      | s => readFrom r.twoStars (some '*') s
    else if r.aloneLeft prev then
      match s with
      | [] => readFrom (r.overSlash .anyBelow) (some '*') []
      | '/' :: s => readFrom (r.overSlash .anyBetween) (some '/') s
      | c :: s =>
        if r.inGroup ∧ (c = ',' ∨ c = '\x7d') then
          readFrom (r.overSlash .anyBelow) (some '*') (c :: s)
        else readFrom r.twoStars (some '*') (c :: s)
    else readFrom r.twoStars (some '*') s
  | '*' :: s => readFrom (r.push .star) (some '*') s
  | '[' :: '!' :: s => readClass r ⟨true, [], true, false⟩ s
  | '[' :: '^' :: s => readClass r ⟨true, [], true, false⟩ s
  | '[' :: s => readClass r ⟨false, [], true, false⟩ s
  | '\x7b' :: s => readFrom r.openGroup (some '\x7b') s
  | '\x7d' :: s =>
    match r.closeGroup with
    | .ok r => readFrom r (some '\x7d') s
    | .error f => .error f
  | ',' :: s => readFrom r.comma (some ',') s
  | '\\' :: [] => .error .danglingEscape
  | '\\' :: c :: s => readFrom (r.push (.literal c)) (some c) s
  | c :: s => readFrom (r.push (.literal c)) (some c) s
termination_by s => s.length

/-- Reads a class on, and then the rest of the pattern. -/
def readClass (r : Reading) (k : OpenClass) : List Char → Except Fault Pattern
  | [] => .error .unclosedClass
  | c :: s =>
    match k.step c with
    | .ok (.inl k) => readClass r k s
    | .ok (.inr p) => readFrom (r.push p) (some ']') s
    | .error f => .error f
termination_by s => s.length

end

def Pattern.parse (text : String) : Except Fault Pattern := readFrom ⟨[], []⟩ none text.toList

end RoutineParams.Glob
