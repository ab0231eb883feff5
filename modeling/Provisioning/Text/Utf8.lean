-- Characters from bytes. A run of bytes that spells no character is kept as
-- one gap, so that a reader can refuse it, replace it or pass over it.

namespace Provisioning

/-- Text taken from bytes: `none` stands where the bytes spell no character. -/
abbrev Glyphs := List (Option Char)

namespace Utf8

/-- What a first byte asks for: how many bytes follow, the range of the next
one, and the bits it brings. No byte below `C2` and above `7F`, and none above
`F4`, starts a character. -/
def lead (b : Nat) : Option (Nat × Nat × Nat × Nat) :=
  if b < 0x80 then some (0, 0x80, 0xBF, b)
  else if b < 0xC2 then none
  else if b < 0xE0 then some (1, 0x80, 0xBF, b - 0xC0)
  else if b = 0xE0 then some (2, 0xA0, 0xBF, 0)
  else if b = 0xED then some (2, 0x80, 0x9F, 0xD)
  else if b < 0xF0 then some (2, 0x80, 0xBF, b - 0xE0)
  else if b = 0xF0 then some (3, 0x90, 0xBF, 0)
  else if b < 0xF4 then some (3, 0x80, 0xBF, b - 0xF0)
  else if b = 0xF4 then some (3, 0x80, 0x8F, 4)
  else none

/-- Takes `owed` further bytes. Gives the character, or a gap at the first byte
out of range, and how many bytes were taken. -/
def follow : (owed low high bits taken : Nat) → List UInt8 → Option Char × Nat
  | 0, _, _, bits, taken, _ => (some (Char.ofNat bits), taken)
  | _ + 1, _, _, _, taken, [] => (none, taken)
  | owed + 1, low, high, bits, taken, b :: rest =>
    if low ≤ b.toNat ∧ b.toNat ≤ high then
      follow owed 0x80 0xBF (bits * 64 + (b.toNat - 0x80)) (taken + 1) rest
    else (none, taken)

/-- The characters of a byte sequence. -/
def decode : List UInt8 → Glyphs
  | [] => []
  | b :: rest =>
    match lead b.toNat with
    | none => none :: decode rest
    | some (owed, low, high, bits) =>
      let (c, taken) := follow owed low high bits 0 rest
      c :: decode (rest.drop taken)
termination_by bytes => bytes.length
decreasing_by all_goals simp only [List.length_cons, List.length_drop]; omega

/-- The text of a byte sequence, if every byte belongs to a character. -/
def strict (bytes : List UInt8) : Option String :=
  ((decode bytes).mapM id).map String.ofList

/-- The text of a byte sequence with U+FFFD in the gaps. -/
def lenient (bytes : List UInt8) : String :=
  String.ofList ((decode bytes).map fun c => c.getD '\uFFFD')

end Utf8

/-- A text as glyphs. -/
def glyphs (s : String) : Glyphs := s.toList.map some

/-- The bytes of a text. -/
def utf8Bytes (s : String) : List UInt8 := s.toList.flatMap String.utf8EncodeChar

end Provisioning
