import RoutineParams.Text.Hexadecimal

/-!
# Writing TOML

Strings are written in the plainest of the four forms that shows them well: between double quotes
if nothing has to be escaped, else between single quotes, else over several lines. What no form can
hold as it is gets escaped. Arrays of several items take a line for each.
-/

namespace RoutineParams.Toml

inductive StringForm where
  | basic | literal | longBasic | longLiteral
deriving DecidableEq, Repr

/-- A control character other than a tab and a line end. -/
def isControl (c : Char) : Bool := (c.toNat < 0x20 || c.toNat = 0x7f) && c != '\t' && c != '\n'

/-- The length of the longest run of `c`, where `n` of them come before `s` and `best` is the
longest run so far. -/
def longestRun (c : Char) (n best : Nat) : List Char → Nat
  | [] => max best n
  | d :: s => if d = c then longestRun c (n + 1) best s else longestRun c 0 (max best n) s

/-- The form in which a string is written. -/
def stringForm (s : List Char) : StringForm :=
  let controls := s.any isControl
  let backslash := s.contains '\\'
  let lines := s.contains '\n'
  let doubles := longestRun '"' 0 0 s
  let singles := longestRun '\'' 0 0 s
  if !controls && !backslash && doubles = 0 && !lines then .basic
  else if !controls && singles = 0 && !lines then .literal
  else if !controls && !backslash && doubles ≤ 2 then .longBasic
  else if !controls && singles ≤ 2 then .longLiteral
  else if lines then .longBasic
  else .basic

/-- Whether a character other than a quote is escaped in a string between double quotes. -/
def needsEscape (long : Bool) (c : Char) : Bool :=
  c == '\\' || c == '\t' || isControl c || (c == '\n' && !long)

def escapeChar (c : Char) : List Char :=
  if c = '\x08' then ['\\', 'b']
  else if c = '\t' then ['\\', 't']
  else if c = '\n' then ['\\', 'n']
  else if c = '\x0c' then ['\\', 'f']
  else if c = '\r' then ['\\', 'r']
  else if c = '\\' then ['\\', '\\']
  else if c = '"' then ['\\', '"']
  else ['\\', 'u', '0', '0', upperHexDigit (c.toNat / 16), upperHexDigit (c.toNat % 16)]

/-- A string between double quotes, without them. `free` is how many quotes may stand together,
and `left` how many still may at this place. -/
def escapeBasic (long : Bool) (free left : Nat) : List Char → List Char
  | [] => []
  | c :: s =>
    if c = '"' then
      match left with
      | 0 => escapeChar c ++ escapeBasic long free free s
      | left + 1 => c :: escapeBasic long free left s
    else if needsEscape long c then escapeChar c ++ escapeBasic long free free s
    else c :: escapeBasic long free free s

/-- A string as it is written. A string of several lines starts on a line of its own. -/
def writeString (text : String) : List Char :=
  let s := text.toList
  let first := if s.contains '\n' then ['\n'] else []
  let long (quote : Char) (body : List Char) : List Char :=
    List.replicate 3 quote ++ first ++ body ++ List.replicate 3 quote
  match stringForm s with
  | .basic => '"' :: (escapeBasic false 0 0 s ++ ['"'])
  | .literal => '\'' :: (s ++ ['\''])
  | .longBasic => long '"' (escapeBasic true 2 2 s)
  | .longLiteral => long '\'' s

def writeStrings : List String → List Char
  | [] => ['[', ']']
  | [a] => '[' :: (writeString a ++ [']'])
  | items =>
    '[' :: '\n' :: (items.flatMap fun a => List.replicate 4 ' ' ++ writeString a ++ [',', '\n']) ++
      [']']

/-- The entry of a key that needs no quotes. -/
def writeEntry (key : String) (value : List Char) : List Char :=
  key.toList ++ [' ', '=', ' '] ++ value ++ ['\n']

end RoutineParams.Toml
