import RoutineParams.Text.Hexadecimal
import RoutineParams.Text.Lossy

/-!
# Percent notation

Bytes written as a percent sign and two hexadecimal digits. A percent sign without two digits stands
for itself, and a zero byte ends what is written.
-/

namespace RoutineParams

/-- The bytes that bytes in percent notation stand for. -/
def percentDecode : List UInt8 → List UInt8
  | a :: b :: c :: s =>
    match hexValue? (Char.ofNat b.toNat), hexValue? (Char.ofNat c.toNat) with
    | some high, some low =>
      if a.toNat ≠ '%'.toNat then a :: percentDecode (b :: c :: s)
      else if high * 16 + low = 0 then []
      else UInt8.ofNat (high * 16 + low) :: percentDecode s
    | _, _ => a :: percentDecode (b :: c :: s)
  | s => s

def percentText (s : List Char) : String :=
  String.ofList (textOfBytes (percentDecode (String.ofList s).toByteArray.toList))

end RoutineParams
