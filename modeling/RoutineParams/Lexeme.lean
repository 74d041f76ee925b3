import RoutineParams.ReservedWord
import RoutineParams.Text.Blank
import RoutineParams.Text.Hexadecimal
import RoutineParams.Text.Numeric

/-!
# Lexemes

A lexeme is a piece of text that is not cut further. `lexeme c rest` says of the text `c :: rest`
what its first lexeme is and how many characters follow `c` in it, or why the lexeme has no end
and at how many characters from its start that shows.

Every lexeme holds its first character, so cutting lexemes off a text comes to an end and loses
nothing.
-/

namespace RoutineParams

/-! ## Algorithm -/

/-- Why a lexeme cannot be completed. -/
inductive LexFault where
  | unterminatedString
  | unclosedQuote (close : Char)
  | unclosedComment
  | unterminatedDollar
  | unterminatedDollarTag
deriving DecidableEq, Repr

def LexFault.message : LexFault → String
  | .unterminatedString => "Unterminated string literal"
  | .unclosedQuote close => "Expected close delimiter '" ++ close.toString ++ "' before EOF."
  | .unclosedComment => "Unexpected EOF while in a multi-line comment"
  | .unterminatedDollar => "Unterminated dollar-quoted string"
  | .unterminatedDollarTag => "Unterminated dollar-quoted, expected $"

/-- What a lexeme is. Words, numbers and placeholders have the characters that tell their kind. -/
inductive Form where
  | word (letters : List Char)
  | quotedWord
  | number (figures : List Char)
  | string
  | nationalString
  | hex
  | placeholder (name : List Char)
  | blank
  | lineComment
  | blockComment
  /-- A sign, or a piece of text that has no meaning here. -/
  | sign (kind : Kind)
deriving DecidableEq, Repr

/-- The kind of an unquoted word. One sign `@` makes a variable, two the name of a system
function. -/
def Kind.ofLetters (letters : List Char) : Kind :=
  if ['@', '@'].isPrefixOf letters then .identifier
  else if ['@'].isPrefixOf letters then .localVariable
  else .ofWord letters

def Kind.ofFigures (figures : List Char) : Kind :=
  if figures.all Char.isDigit then .integer
  else if figures.any fun c => c == 'e' || c == 'E' then .real
  else .numeric

namespace Form

/-- Whether a lexeme is a whole amount of money. -/
def isMoney : Form → Bool
  | placeholder name => name ≠ [] && name.all Char.isDigit
  | _ => false

/-- Whether a lexeme is a number that starts with a point. -/
def isFraction : Form → Bool
  | number figures => figures.head? = some '.'
  | _ => false

def kind (form : Form) : Kind :=
  match form with
  | word letters => .ofLetters letters
  | quotedWord => .quotedIdentifier
  | number figures => .ofFigures figures
  | string => .string
  | nationalString => .nationalString
  | hex => .hex
  | placeholder _ => if form.isMoney then .money else .unknown
  | blank => .blank
  | lineComment => .lineComment
  | blockComment => .blockComment
  | sign kind => kind

end Form

/-- What a lexeme is, and how many characters follow its first one. -/
structure Lexeme where
  form : Form
  extra : Nat
deriving DecidableEq, Repr

/-- A fault, and how many characters of the lexeme come before the place it is reported at. -/
structure LexFailure where
  fault : LexFault
  offset : Nat
deriving DecidableEq, Repr

def isWordStart (c : Char) : Bool := isAlphabetic c || c == '_' || c == '#' || c == '@'

def isWordPart (c : Char) : Bool :=
  isAlphabetic c || c.isDigit || c == '@' || c == '$' || c == '#' || c == '_'

def countWhile (p : Char → Bool) (s : List Char) : Nat := (s.takeWhile p).length

/-- `n` more than the number of characters up to and including the first `close`. A doubled
`close` is passed over, and so is a character after `escape`. -/
def countToClose (escape : Option Char) (close : Char) (n : Nat) : List Char → Option Nat
  | [] => none
  | [c] => if c = close then some (n + 1) else none
  | c :: d :: s =>
    if c = close then
      if d = close then countToClose escape close (n + 2) s else some (n + 1)
    else if some c = escape then countToClose escape close (n + 2) s
    else countToClose escape close (n + 1) (d :: s)

/-- `n` more than the number of characters up to and including the end of a comment that is open
`depth + 1` times. -/
def countToCommentEnd (depth n : Nat) : List Char → Option Nat
  | [] | [_] => none
  | c :: d :: s =>
    if c = '/' ∧ d = '*' then countToCommentEnd (depth + 1) (n + 2) s
    else if c = '*' ∧ d = '/' then
      match depth with
      | 0 => some (n + 2)
      | depth + 1 => countToCommentEnd depth (n + 2) s
    else countToCommentEnd depth (n + 1) (d :: s)

/-- `n` more than the number of characters up to and including the first occurrence of `mark`. -/
def countThrough (mark : List Char) (n : Nat) : List Char → Option Nat
  | [] => none
  | c :: s =>
    if mark.isPrefixOf (c :: s) then some (n + mark.length) else countThrough mark (n + 1) s

/-- The lexeme of a quoted text whose opening quote has `before` characters before it in the
lexeme and stands in front of `s`. -/
def quoted (form : Form) (fault : LexFault) (escape : Option Char) (close : Char) (before : Nat)
    (s : List Char) : Except LexFailure Lexeme :=
  match countToClose escape close before s with
  | some n => .ok ⟨form, n⟩
  | none => .error ⟨fault, before⟩

/-- The length of the sign of a number at the front, 0 where there is none. -/
def signLength (s : List Char) : Nat := if s.head? = some '+' ∨ s.head? = some '-' then 1 else 0

/-- The length of the exponent at the front, 0 where there is none. An exponent has a digit. -/
def exponentLength : List Char → Nat
  | [] => 0
  | e :: s =>
    if e = 'e' ∨ e = 'E' then
      match countWhile Char.isDigit (s.drop (signLength s)) with
      | 0 => 0
      | digits + 1 => 1 + signLength s + (digits + 1)
    else 0

/-- The lexeme of a text that starts with a digit or a point. -/
def numberLexeme (s : List Char) : Lexeme :=
  let whole := s.takeWhile Char.isDigit
  let after := s.drop whole.length
  if whole = ['0'] ∧ after.head? = some 'x' then
    ⟨.hex, 1 + countWhile isHexDigit (after.drop 1)⟩
  else
    let point := if after.head? = some '.' then 1 else 0
    let fraction := countWhile Char.isDigit (after.drop point)
    let digits := whole.length + fraction
    if digits = 0 then ⟨.sign .dot, 0⟩
    else
      let exponent := exponentLength (s.drop (digits + point))
      let figures := digits + point + exponent
      let long := if (s.drop figures).head? = some 'L' then 1 else 0
      ⟨.number (s.take figures), figures + long - 1⟩

/-- The lexeme of a text that starts with a dollar sign, in front of `s`. The sign opens a quoted
text if a name and another dollar sign follow; it is closed by the same name between dollars. -/
def dollarLexeme (s : List Char) : Except LexFailure Lexeme :=
  let name := s.takeWhile fun c => isAlphanumeric c || c == '_'
  match s.drop name.length with
  | '$' :: body =>
    match countThrough ('$' :: name ++ ['$']) (name.length + 1) body with
    | some n => .ok ⟨.sign .unknown, n⟩
    | none =>
      let fault := if name = [] then .unterminatedDollar else .unterminatedDollarTag
      .error ⟨fault, s.length + 1⟩
  | _ => .ok ⟨.placeholder name, name.length⟩

/-- The lexeme of a text that starts with a number sign, in front of `s`. -/
def hashLexeme : List Char → Lexeme
  | [] => ⟨.sign .unknown, 0⟩
  | d :: s =>
    if d = ' ' then ⟨.sign .unknown, 0⟩
    else if d = '-' then ⟨.sign .unknown, 1⟩
    else if d = '>' then ⟨.sign .unknown, if s.head? = some '>' then 2 else 1⟩
    else ⟨.word ('#' :: d :: s.takeWhile isWordPart), 1 + countWhile isWordPart s⟩

/-- The lexeme of a text that starts with an at sign, in front of `s`. -/
def atLexeme : List Char → Lexeme
  | [] => ⟨.sign .unknown, 0⟩
  | d :: s =>
    if d = ' ' ∨ d = '\'' ∨ d = '"' ∨ d = '\x60' then ⟨.sign .unknown, 0⟩
    else if d = '>' ∨ d = '?' then ⟨.sign .unknown, 1⟩
    else if d = '@' then
      match s with
      | [] => ⟨.sign .unknown, 1⟩
      | e :: s =>
        if e = ' ' then ⟨.sign .unknown, 1⟩
        else ⟨.word ('@' :: '@' :: e :: s.takeWhile isWordPart), 2 + countWhile isWordPart s⟩
    else ⟨.word ('@' :: d :: s.takeWhile isWordPart), 1 + countWhile isWordPart s⟩

/-- The signs, each before those that it starts with. -/
def signs : List (List Char × Kind) :=
  [(['('], .leftParen), ([')'], .rightParen), ([','], .comma), ([';'], .semicolon),
   (['+'], .operator), (['*'], .operator), (['%'], .operator), (['/'], .operator),
   (['-', '>', '>'], .unknown), (['-', '>'], .unknown), (['-'], .operator),
   (['|', '|', '/'], .unknown), (['|', '|'], .operator), (['|', '/'], .unknown),
   (['|'], .operator),
   (['=', '>'], .unknown), (['=', '='], .operator), (['='], .equals),
   (['!', '~', '~', '*'], .unknown), (['!', '~', '~'], .unknown), (['!', '~', '*'], .unknown),
   (['!', '~'], .unknown), (['!', '!'], .unknown), (['!', '='], .operator), (['!'], .operator),
   (['<', '=', '>'], .unknown), (['<', '='], .operator), (['<', '>'], .operator),
   (['<', '<'], .unknown), (['<', '@'], .unknown), (['<'], .operator),
   (['>', '='], .operator), (['>', '>'], .unknown), (['>'], .operator),
   ([':', ':'], .unknown), ([':', '='], .unknown), ([':'], .unknown),
   (['&', '&'], .unknown), (['&'], .operator),
   (['^', '@'], .unknown), (['^'], .operator),
   (['~', '~', '*'], .unknown), (['~', '~'], .unknown), (['~', '*'], .unknown),
   (['~'], .operator)]

/-- The longest sign at the front. -/
def signLexeme? (s : List Char) : Option Lexeme :=
  (signs.find? fun sign => sign.1.isPrefixOf s).map fun sign => ⟨.sign sign.2, sign.1.length - 1⟩

/-- The first lexeme of the text `c :: s`. -/
def lexeme (c : Char) (s : List Char) : Except LexFailure Lexeme :=
  if c = '\r' then .ok ⟨.blank, if s.head? = some '\n' then 1 else 0⟩
  else if isBlank c then .ok ⟨.blank, 0⟩
  else if (c = 'N' ∨ c = 'n') ∧ s.head? = some '\'' then
    quoted .nationalString .unterminatedString none '\'' 1 (s.drop 1)
  else if (c = 'X' ∨ c = 'x') ∧ s.head? = some '\'' then
    quoted .hex .unterminatedString (some '\\') '\'' 1 (s.drop 1)
  else if c = '\'' then quoted .string .unterminatedString none '\'' 0 s
  else if c = '"' then quoted .quotedWord (.unclosedQuote '"') none '"' 0 s
  else if c = '[' then quoted .quotedWord (.unclosedQuote ']') none ']' 0 s
  else if c.isDigit ∨ c = '.' then .ok (numberLexeme (c :: s))
  else if c = '-' ∧ s.head? = some '-' then
    let body := countWhile (· != '\n') s
    .ok ⟨.lineComment, if body < s.length then body + 1 else body⟩
  else if c = '/' ∧ s.head? = some '*' then
    match countToCommentEnd 0 1 (s.drop 1) with
    | some n => .ok ⟨.blockComment, n⟩
    | none => .error ⟨.unclosedComment, s.length + 1⟩
  else if c = '#' then .ok (hashLexeme s)
  else if c = '@' then .ok (atLexeme s)
  else if c = '$' then dollarLexeme s
  else if c = '?' then .ok ⟨.sign .unknown, countWhile isNumeric s⟩
  else if isWordStart c then
    .ok ⟨.word (c :: s.takeWhile isWordPart), countWhile isWordPart s⟩
  else .ok ((signLexeme? (c :: s)).getD ⟨.sign .unknown, 0⟩)

end RoutineParams
