import RoutineParams.Lexeme
import RoutineParams.Token
import RoutineParams.Text.Position

/-!
# The tokens of a text

A text is cut into lexemes from its front, and the places between which each lexeme stands are
kept. A token has the characters that the text has between these places. Two lexemes make one
token where a whole amount of money is followed at once by a fraction.

Where a lexeme has no end, the cutting stops: the text before the place that the fault is reported
at is cut once more, on its own, and gives the tokens of the whole; the fault becomes a diagnostic.

    place s                           all lexemes of `s` in their places, or the first fault
    lex s                             the tokens that `s` gives, and its diagnostic
-/

namespace RoutineParams

structure Diagnostic where
  fault : LexFault
  position : Position
deriving DecidableEq, Repr

/-- The tokens of a text. They are all of it if there is no diagnostic. -/
structure Lexed where
  tokens : List Token
  diagnostic : Option Diagnostic
deriving DecidableEq, Repr

/-- Whether part of the text could not be cut into tokens. -/
def Lexed.isPartial (l : Lexed) : Bool := l.diagnostic.isSome

/-- A lexeme of a text, and the places where it starts and where it stops. -/
structure Placed where
  form : Form
  start : Position
  stop : Position
deriving DecidableEq, Repr

/-- Cuts `s` into lexemes, after the lexemes `done` (last one first), which are the cuts of a text
that ends at `p`. -/
def placeFrom (p : Position) (done : List Placed) :
    List Char → Except Diagnostic (List Placed)
  | [] => .ok done.reverse
  | c :: s =>
    match lexeme c s with
    | .ok l =>
      let stop := (c :: s.take l.extra).foldl .next p
      placeFrom stop (⟨l.form, p, stop⟩ :: done) (s.drop l.extra)
    | .error f => .error ⟨f.fault, ((c :: s).take f.offset).foldl .next p⟩
termination_by s => s.length
decreasing_by simp only [List.length_drop, List.length_cons]; omega

/-- All lexemes of a text in their places, or its first fault. -/
def place (s : List Char) : Except Diagnostic (List Placed) := placeFrom .start [] s

/-- Whether `b` is the fraction of the amount of money `a`. -/
def Placed.isFractionOf (b a : Placed) : Bool :=
  a.form.isMoney && b.form.isFraction && b.start = a.stop

section
variable (shown : Form → String)

/-- The token of the text from `p` up to `q`. Its text is `fallback` where the index finds none. -/
def TextIndex.token (index : TextIndex) (kind : Kind) (p q : Position) (fallback : String) :
    Token :=
  ⟨kind, ((index.between? p q).map String.ofList).getD fallback⟩

/-- The tokens that the lexemes of a text make, after the tokens `done` (last one first). A lexeme
is written as `shown` where its place cannot be found. -/
def tokensFrom (index : TextIndex) (done : List Token) : List Placed → List Token
  | [] => done.reverse
  | [a] => (index.token a.form.kind a.start a.stop (shown a.form) :: done).reverse
  | a :: b :: placed =>
    if b.isFractionOf a then
      tokensFrom index
        (index.token .money a.start b.stop (shown a.form ++ shown b.form) :: done) placed
    else
      tokensFrom index (index.token a.form.kind a.start a.stop (shown a.form) :: done)
        (b :: placed)

/-- The tokens of a text that is cut into the lexemes `placed`. -/
def tokensOf (s : List Char) (placed : List Placed) : List Token :=
  tokensFrom shown (.ofText s) [] placed

/-- The tokens of the text before a position, none if they cannot be told. -/
def tokensBefore (p : Position) (s : List Char) : List Token :=
  match (TextIndex.ofText s).offset? p with
  | some n =>
    match place (s.take n) with
    | .ok placed => tokensOf shown (s.take n) placed
    | .error _ => []
  | none => []

/-- The tokens that a text gives, and the diagnostic if they are not all of it. -/
def lexShowing (source : String) : Lexed :=
  let s := source.toList
  match place s with
  | .ok placed => ⟨tokensOf shown s placed, none⟩
  | .error d => ⟨tokensBefore shown d.position s, some d⟩

end

/-- The tokens of a text, where every lexeme is found in its place. -/
def lex (source : String) : Lexed := lexShowing (fun _ => "") source

end RoutineParams
