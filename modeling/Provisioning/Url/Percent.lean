-- Percent-encoding: a character that a part of a URL cannot hold is written
-- as its bytes, each as a percent sign and two hex digits.
import Provisioning.Text.Basic
import Provisioning.Text.Utf8

namespace Provisioning.Percent

/-- The printable ASCII characters that a part of a URL encodes. Controls and
everything beyond ASCII are always encoded. -/
abbrev EncodedSet := List Char

namespace EncodedSet

def controls : EncodedSet := []

def fragment : EncodedSet := [' ', '"', '<', '>', '\x60']

def query : EncodedSet := [' ', '"', '#', '<', '>']

def specialQuery : EncodedSet := query ++ ['\x27']

def path : EncodedSet := fragment ++ ['#', '?', '\x7b', '\x7d']

/-- A single segment: it also encodes what would split it, and the percent sign,
so that nothing in it is taken for an encoding. -/
def segment : EncodedSet := path ++ ['/', '%']

def specialSegment : EncodedSet := segment ++ ['\\']

def userInfo : EncodedSet := path ++ ['/', ':', ';', '=', '@', '[', '\\', ']', '^', '|']

end EncodedSet

/-- Does a character stand for itself? -/
def isPlain (set : EncodedSet) (c : Char) : Bool :=
  0x20 ≤ c.toNat && c.toNat < 0x7F && !set.contains c

def upperHexDigit (d : Nat) : Char := if d < 10 then Char.ofNat (48 + d) else Char.ofNat (55 + d)

/-- One byte, encoded. -/
def encodeByte (b : UInt8) : List Char :=
  ['%', upperHexDigit (b.toNat / 16), upperHexDigit (b.toNat % 16)]

def encodeChar (set : EncodedSet) (c : Char) : List Char :=
  if isPlain set c then [c] else (String.utf8EncodeChar c).flatMap encodeByte

def encode (set : EncodedSet) (cs : List Char) : List Char := cs.flatMap (encodeChar set)

/-- The bytes that an encoded text stands for. A percent sign without two hex
digits stands for itself. -/
def decodeBytes : List Char → List UInt8
  | '%' :: a :: b :: rest =>
    match hexDigit? a, hexDigit? b with
    | some high, some low => UInt8.ofNat (high * 16 + low) :: decodeBytes rest
    | _, _ => 37 :: decodeBytes (a :: b :: rest)
  | c :: rest => String.utf8EncodeChar c ++ decodeBytes rest
  | [] => []

/-- The text that an encoded text stands for, if its bytes make one. -/
def decode? (cs : List Char) : Option (List Char) := (Utf8.decode (decodeBytes cs)).mapM id

end Provisioning.Percent
