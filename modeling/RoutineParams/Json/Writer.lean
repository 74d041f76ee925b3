import RoutineParams.Json.Value
import RoutineParams.Text.Decimal
import RoutineParams.Text.Hexadecimal

/-!
# Writing JSON

JSON values as text, on one line without blanks (`compact`), or with an item or a member to a
line, each level two blanks further in (`pretty`).
-/

namespace RoutineParams.Json

/-- A character inside a quoted text. Quotes, backslashes and the controls of ASCII are escaped. -/
def escapeChar (c : Char) : List Char :=
  if c = '"' then ['\\', '"']
  else if c = '\\' then ['\\', '\\']
  else if c = '\x08' then ['\\', 'b']
  else if c = '\x0c' then ['\\', 'f']
  else if c = '\n' then ['\\', 'n']
  else if c = '\r' then ['\\', 'r']
  else if c = '\t' then ['\\', 't']
  else if c.toNat < 0x20 then
    ['\\', 'u', '0', '0', lowerHexDigit (c.toNat / 16), lowerHexDigit (c.toNat % 16)]
  else [c]

def quote (s : String) : List Char := '"' :: (s.toList.flatMap escapeChar ++ ['"'])

/-- A value that holds no others. -/
def scalar : Json → List Char
  | .null => ['n', 'u', 'l', 'l']
  | .bool true => ['t', 'r', 'u', 'e']
  | .bool false => ['f', 'a', 'l', 's', 'e']
  | .int n => decimalInt n
  | .decimal text => text.toList
  | .str s => quote s
  | .arr _ | .obj _ => []

mutual

/-- A value on one line, without blanks. -/
def compact : Json → List Char
  | .arr items => '[' :: (compactItems items ++ [']'])
  | .obj members => '{' :: (compactMembers members ++ ['}'])
  | j => j.scalar

def compactItems : List Json → List Char
  | [] => []
  | [j] => compact j
  | j :: items => compact j ++ ',' :: compactItems items

def compactMembers : List (String × Json) → List Char
  | [] => []
  | [(k, j)] => quote k ++ ':' :: compact j
  | (k, j) :: members => quote k ++ ':' :: (compact j ++ ',' :: compactMembers members)

end

def newline (level : Nat) : List Char := '\n' :: List.replicate (2 * level) ' '

mutual

/-- A value over several lines, from the given level on. -/
def prettyAt (level : Nat) : Json → List Char
  | .arr [] => ['[', ']']
  | .arr items => '[' :: (prettyItems (level + 1) items ++ newline level ++ [']'])
  | .obj [] => ['{', '}']
  | .obj members => '{' :: (prettyMembers (level + 1) members ++ newline level ++ ['}'])
  | j => j.scalar

/-- Items, each on a line of its own. -/
def prettyItems (level : Nat) : List Json → List Char
  | [] => []
  | [j] => newline level ++ prettyAt level j
  | j :: items => newline level ++ prettyAt level j ++ ',' :: prettyItems level items

/-- Members, each on a line of its own. -/
def prettyMembers (level : Nat) : List (String × Json) → List Char
  | [] => []
  | [(k, j)] => newline level ++ quote k ++ ':' :: ' ' :: prettyAt level j
  | (k, j) :: members =>
    newline level ++ quote k ++
      ':' :: ' ' :: (prettyAt level j ++ ',' :: prettyMembers level members)

end

def pretty (j : Json) : List Char := prettyAt 0 j

end RoutineParams.Json
