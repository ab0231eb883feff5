-- The tokens of a JSON text. Whatever is no token is one last token that
-- knows its fault, both for a reader that wants its content and for one
-- that only passes over it.
import Provisioning.Json.Number
import Provisioning.Text.Utf8

namespace Provisioning.Json

/-- A token. The content of a string can be at fault where its form is not:
a lone surrogate spells no character. -/
inductive Token
  | openList
  | closeList
  | openObject
  | closeObject
  | comma
  | colon
  | null
  | bool (value : Bool)
  | number (literal : NumberLiteral)
  | string (text : Except SyntaxFault String)
  | badString (read skip : SyntaxFault)
  | bad (read skip : SyntaxFault)
deriving Repr

/-- What is left of a text, no longer than the text. -/
abbrev Remainder (s : Glyphs) := { r : Glyphs // r.length ≤ s.length }

def Remainder.nothing {s : Glyphs} : Remainder s := ⟨[], Nat.zero_le _⟩

/-! ## Strings -/

/-- One piece of a string as written. -/
inductive StringUnit
  | plain (c : Option Char)
  | escape (c : Char)
  /-- Sixteen bits, given by four hex digits. -/
  | code (n : Nat)
deriving DecidableEq, Repr

/-- How the pieces of a string end. -/
inductive StringEnd
  | quote
  | eof
  | control
  | badEscape
  | badCode
deriving DecidableEq, Repr

def StringEnd.fault? : StringEnd → Option SyntaxFault
  | .quote => none
  | .eof => some .eofInString
  | .control => some .controlCharacter
  | .badEscape => some .invalidEscape
  | .badCode => some .invalidEscape

/-- The character of a one-letter escape. -/
def escapeChar? : Char → Option Char
  | '"' => some '"'
  | '\\' => some '\\'
  | '/' => some '/'
  | 'b' => some '\x08'
  | 'f' => some '\x0c'
  | 'n' => some '\n'
  | 'r' => some '\r'
  | 't' => some '\t'
  | _ => none

/-- The value of four hex digits. -/
def hexCode? (a b c d : Option Char) : Option Nat := do
  let a ← hexDigit? (← a)
  let b ← hexDigit? (← b)
  let c ← hexDigit? (← c)
  let d ← hexDigit? (← d)
  return ((a * 16 + b) * 16 + c) * 16 + d

/-- The length of a text in bytes; a gap counts as one. -/
def byteCount (s : Glyphs) : Nat :=
  s.foldl (fun n c => n + (c.map Char.utf8Size).getD 1) 0

/-- The pieces of a string up to its closing quote or its first fault, and what
follows. Four hex digits that the text has no four bytes for end it. -/
def stringUnits : (s : Glyphs) → List StringUnit × StringEnd × Remainder s
  | [] => ([], .eof, ⟨[], Nat.le_refl _⟩)
  | some '"' :: rest => ([], .quote, ⟨rest, Nat.le_succ _⟩)
  | some '\\' :: some 'u' :: rest =>
    match rest with
    | a :: b :: c :: d :: rest =>
      match hexCode? a b c d with
      | some n =>
        let (units, close, r) := stringUnits rest
        (.code n :: units, close, ⟨r.1, by have := r.2; simp only [List.length_cons]; omega⟩)
      | none => ([], .badCode, .nothing)
    | short => ([], if byteCount short < 4 then .eof else .badCode, .nothing)
  | some '\\' :: some e :: rest =>
    match escapeChar? e with
    | some c =>
      let (units, close, r) := stringUnits rest
      (.escape c :: units, close, ⟨r.1, by have := r.2; simp only [List.length_cons]; omega⟩)
    | none => ([], .badEscape, .nothing)
  | some '\\' :: none :: _ => ([], .badEscape, .nothing)
  | [some '\\'] => ([], .eof, .nothing)
  | c :: rest =>
    if c.any fun c => c.toNat < 0x20 then ([], .control, .nothing)
    else
      let (units, close, r) := stringUnits rest
      (.plain c :: units, close, ⟨r.1, by have := r.2; simp only [List.length_cons]; omega⟩)

def isLeadSurrogate (n : Nat) : Bool := 0xD800 ≤ n && n ≤ 0xDBFF

def isTrailSurrogate (n : Nat) : Bool := 0xDC00 ≤ n && n ≤ 0xDFFF

/-- The code point of a surrogate pair. -/
def pairedCode (high low : Nat) : Nat := (high - 0xD800) * 0x400 + (low - 0xDC00) + 0x10000

/-- The glyphs of a string's pieces. Two codes spell a character past 16 bits
together; a surrogate without its partner is a fault, which a text that
ends within the partner's own escape hides. -/
def unitGlyphs (close : StringEnd) : List StringUnit → Except SyntaxFault Glyphs
  | [] => match close.fault? with
    | some fault => .error fault
    | none => .ok []
  | .plain c :: units => (unitGlyphs close units).map (c :: ·)
  | .escape c :: units => (unitGlyphs close units).map (some c :: ·)
  | .code n :: units =>
    if isTrailSurrogate n then .error .loneSurrogate
    else if isLeadSurrogate n then
      match units with
      | .code m :: units =>
        if isTrailSurrogate m then
          (unitGlyphs close units).map (some (Char.ofNat (pairedCode n m)) :: ·)
        else .error .loneSurrogate
      | [] => match close with
        | .eof => .error .eofInString
        | .badCode => .error .invalidEscape
        | _ => .error .hexEscapeEnd
      | _ => .error .hexEscapeEnd
    else (unitGlyphs close units).map (some (Char.ofNat n) :: ·)

/-- The text of a string's pieces. A gap is found only when all pieces are in
order. -/
def unitsText (close : StringEnd) (units : List StringUnit) : Except SyntaxFault String :=
  match unitGlyphs close units with
  | .error fault => .error fault
  | .ok cs => match cs.mapM id with
    | some cs => .ok (String.ofList cs)
    | none => .error .invalidUnicode

/-- The string after an opening quote. -/
def stringToken (s : Glyphs) : Token × Remainder s :=
  let (units, close, rest) := stringUnits s
  let text := unitsText close units
  match close.fault?, text with
  | none, text => (.string text, rest)
  | some skip, .error read => (.badString read skip, rest)
  | some skip, .ok _ => (.badString skip skip, rest)

/-! ## Numbers -/

/-- The value of a glyph that is a decimal digit. -/
def digit? (c : Option Char) : Option Nat := c.bind decimalDigit?

/-- The digits at the start of a text, and what follows. -/
def takeDigits : (s : Glyphs) → List Nat × Remainder s
  | [] => ([], ⟨[], Nat.le_refl _⟩)
  | c :: rest =>
    match digit? c with
    | some d =>
      let (ds, r) := takeDigits rest
      (d :: ds, ⟨r.1, by have := r.2; simp only [List.length_cons]; omega⟩)
    | none => ([], ⟨c :: rest, Nat.le_refl _⟩)

/-- Where a digit is missing: at the end of the text a reader waits for more,
while one that passes over the number calls it invalid. -/
def missingDigit : Glyphs → Token
  | [] => .bad .eofInValue .invalidNumber
  | _ => .bad .invalidNumber .invalidNumber

/-- The digits of an exponent whose sign is known. -/
def exponentDigits (l : NumberLiteral) (negative : Bool) (s : Glyphs) : Token × Remainder s :=
  match takeDigits s with
  | ([], _) => (missingDigit s, .nothing)
  | (ds, rest) =>
    (.number { l with isWhole := false, exponentNegative := negative, exponent := ds }, rest)

/-- The exponent of a number, after its `e`. -/
def exponentPart (l : NumberLiteral) (s : Glyphs) : Token × Remainder s :=
  match s with
  | some '+' :: rest =>
    let (token, r) := exponentDigits l false rest
    (token, ⟨r.1, Nat.le_succ_of_le r.2⟩)
  | some '-' :: rest =>
    let (token, r) := exponentDigits l true rest
    (token, ⟨r.1, Nat.le_succ_of_le r.2⟩)
  | s => exponentDigits l false s

/-- The exponent of a number, if one follows. -/
def exponentPart? (l : NumberLiteral) (s : Glyphs) : Token × Remainder s :=
  match s with
  | some 'e' :: rest | some 'E' :: rest =>
    let (token, r) := exponentPart l rest
    (token, ⟨r.1, Nat.le_succ_of_le r.2⟩)
  | s => (.number l, ⟨s, Nat.le_refl _⟩)

/-- What follows the whole digits of a number. -/
def fractionPart? (l : NumberLiteral) (s : Glyphs) : Token × Remainder s :=
  match s with
  | some '.' :: rest =>
    match takeDigits rest with
    | ([], _) => (missingDigit rest, .nothing)
    | (ds, digitsRest) =>
      let (token, r) := exponentPart? { l with isWhole := false, fraction := ds } digitsRest.1
      (token, ⟨r.1, Nat.le_succ_of_le (Nat.le_trans r.2 digitsRest.2)⟩)
  | s => exponentPart? l s

/-- The number whose first digit is `d`. A zero stands alone before the point. -/
def numberToken (negative : Bool) (d : Nat) (s : Glyphs) : Token × Remainder s :=
  let (ds, rest) := takeDigits s
  if d = 0 ∧ ds ≠ [] then (.bad .invalidNumber .invalidNumber, .nothing)
  else
    let literal : NumberLiteral :=
      { negative, whole := d :: ds, fraction := [], isWhole := true,
        exponentNegative := false, exponent := [] }
    let (token, r) := fractionPart? literal rest.1
    (token, ⟨r.1, Nat.le_trans r.2 rest.2⟩)

/-- The number after a minus sign. -/
def negativeToken (s : Glyphs) : Token × Remainder s :=
  match s with
  | [] => (missingDigit [], ⟨[], Nat.le_refl _⟩)
  | c :: rest =>
    match digit? c with
    | some d =>
      let (token, r) := numberToken true d rest
      (token, ⟨r.1, Nat.le_succ_of_le r.2⟩)
    | none => (missingDigit (c :: rest), .nothing)

/-! ## Words -/

/-- The rest of a word such as `null`. -/
def wordToken (token : Token) : (word : List Char) → (s : Glyphs) → Token × Remainder s
  | [], s => (token, ⟨s, Nat.le_refl _⟩)
  | _ :: _, [] => (.bad .eofInValue .eofInValue, ⟨[], Nat.le_refl _⟩)
  | c :: word, g :: rest =>
    if g = some c then
      let (t, r) := wordToken token word rest
      (t, ⟨r.1, Nat.le_succ_of_le r.2⟩)
    else (.bad .expectedIdent .expectedIdent, .nothing)

/-! ## Texts -/

/-- Blanks between tokens. -/
def isJsonBlank : Option Char → Bool
  | some c => c == ' ' || c == '\n' || c == '\t' || c == '\r'
  | none => false

/-- The token that starts with glyph `c`. -/
def tokenFrom (c : Option Char) (rest : Glyphs) : Token × Remainder rest :=
  match c with
  | some '[' => (.openList, ⟨rest, Nat.le_refl _⟩)
  | some ']' => (.closeList, ⟨rest, Nat.le_refl _⟩)
  | some '\x7b' => (.openObject, ⟨rest, Nat.le_refl _⟩)
  | some '\x7d' => (.closeObject, ⟨rest, Nat.le_refl _⟩)
  | some ',' => (.comma, ⟨rest, Nat.le_refl _⟩)
  | some ':' => (.colon, ⟨rest, Nat.le_refl _⟩)
  | some 'n' => wordToken .null ['u', 'l', 'l'] rest
  | some 't' => wordToken (.bool true) ['r', 'u', 'e'] rest
  | some 'f' => wordToken (.bool false) ['a', 'l', 's', 'e'] rest
  | some '"' => stringToken rest
  | some '-' => negativeToken rest
  | c =>
    match digit? c with
    | some d => numberToken false d rest
    | none => (.bad .expectedValue .expectedValue, .nothing)

/-- The tokens of a text, up to the first that is none. -/
def tokens : Glyphs → List Token
  | [] => []
  | c :: rest =>
    if isJsonBlank c then tokens rest
    else
      match tokenFrom c rest with
      | (.bad read skip, _) => [.bad read skip]
      | (.badString read skip, _) => [.badString read skip]
      | (token, r) => token :: tokens r.1
termination_by s => s.length
decreasing_by
  · simp
  · exact Nat.lt_succ_of_le r.2

end Provisioning.Json
