-- Characters from bytes in pairs, and the marks that tell the encoding of a text.
import Provisioning.Text.Utf8

namespace Provisioning

namespace Utf16

/-- The numbers that pairs of bytes make; a last byte without another makes none. -/
def units (highFirst : Bool) : List UInt8 → List (Option Nat)
  | [] => []
  | [_] => [none]
  | a :: b :: rest =>
    some (if highFirst then a.toNat * 256 + b.toNat else b.toNat * 256 + a.toNat) ::
      units highFirst rest

/-- Is this the first half of a character? -/
def isHigh (unit : Nat) : Bool := 0xD800 ≤ unit && unit < 0xDC00

/-- Is this the second half of a character? -/
def isLow (unit : Nat) : Bool := 0xDC00 ≤ unit && unit < 0xE000

/-- The characters that the numbers make, one or two of them each. A half alone leaves
a gap, and the same gap serves for a byte alone behind it. -/
def decode : List (Option Nat) → Glyphs
  | [] => []
  | none :: rest => none :: decode rest
  | some high :: some low :: rest =>
    if isHigh high && isLow low then
      some (Char.ofNat (0x10000 + (high - 0xD800) * 0x400 + (low - 0xDC00))) :: decode rest
    else if isHigh high || isLow high then none :: decode (some low :: rest)
    else some (Char.ofNat high) :: decode (some low :: rest)
  | some unit :: rest =>
    if isHigh unit then [none]
    else if isLow unit then none :: decode rest
    else some (Char.ofNat unit) :: decode rest

/-- The text of a byte sequence with U+FFFD in the gaps. -/
def lenient (highFirst : Bool) (bytes : List UInt8) : String :=
  String.ofList ((decode (units highFirst bytes)).map fun c => c.getD '\uFFFD')

end Utf16

/-- The text behind a mark of its encoding, if it begins with one. -/
def textBehindMark? : List UInt8 → Option String
  | 0xEF :: 0xBB :: 0xBF :: rest => some (Utf8.lenient rest)
  | 0xFE :: 0xFF :: rest => some (Utf16.lenient true rest)
  | 0xFF :: 0xFE :: rest => some (Utf16.lenient false rest)
  | _ => none

/-- A pair of halves, and a half alone behind it. -/
example : Utf16.decode (Utf16.units true [0xD8, 0x3D, 0xDE, 0x00, 0xD8, 0x3D]) =
    [some (Char.ofNat 0x1F600), none] := by
  decide

end Provisioning
