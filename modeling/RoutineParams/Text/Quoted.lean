import RoutineParams.Text.Hexadecimal
import RoutineParams.Text.Unprintable

/-!
# Quoted texts

A text between double quotes, as messages show the paths they name. Quotes and backslashes stand
after a backslash, and what cannot be shown is given by its code in hexadecimal.
-/

namespace RoutineParams

/-- A character of a quoted text. -/
def quotedChar (c : Char) : List Char :=
  if c = '\x00' then ['\\', '0']
  else if c = '\t' then ['\\', 't']
  else if c = '\n' then ['\\', 'n']
  else if c = '\r' then ['\\', 'r']
  else if c = '"' ∨ c = '\'' ∨ c = '\\' then ['\\', c]
  else if isUnprintable c then '\\' :: 'u' :: '\x7b' :: (lowerHex c.toNat ++ ['\x7d'])
  else [c]

def quotedText (s : String) : String :=
  String.ofList ('"' :: (s.toList.flatMap quotedChar ++ ['"']))

end RoutineParams
