-- Doubles from decimal texts, rounded exactly once.
import Provisioning.Number.Double
import Provisioning.Text.Basic

namespace Provisioning

/-- The double nearest to `digits * 10 ^ exponent`. Values far out of range are
settled without their powers of ten. -/
def Double.ofDecimal (negative : Bool) (digits : Nat) (exponent : Int) : Double :=
  let magnitude := exponent + (Nat.toDigits 10 digits).length
  if digits = 0 ∨ magnitude < -400 then ofQuotient negative 0 1
  else if 400 < magnitude then infinite negative
  else ofQuotient negative (digits * powerOfTen exponent.toNat) (powerOfTen (-exponent).toNat)

namespace DecimalText

/-- The digits at the start of a text, and what follows. -/
def takeDigits : List Char → List Nat × List Char
  | [] => ([], [])
  | c :: rest =>
    match decimalDigit? c with
    | some d => let (ds, r) := takeDigits rest; (d :: ds, r)
    | none => ([], c :: rest)

/-- A sign at the start of a text, and what follows. -/
def takeSign : List Char → Bool × List Char
  | '-' :: rest => (true, rest)
  | '+' :: rest => (false, rest)
  | rest => (false, rest)

/-- An exponent that fills the rest of a text; none is zero. -/
def exponent? : List Char → Option Int
  | [] => some 0
  | c :: rest =>
    if c ≠ 'e' ∧ c ≠ 'E' then none
    else
      let (negative, rest) := takeSign rest
      match takeDigits rest with
      | ([], _) => none
      | (ds, []) => some (if negative then -(digitsValue ds : Int) else digitsValue ds)
      | _ => none

/-- The digits around a point, and what follows. -/
def takeNumber (s : List Char) : List Nat × List Nat × List Char :=
  match takeDigits s with
  | (whole, '.' :: rest) => let (fraction, rest) := takeDigits rest; (whole, fraction, rest)
  | (whole, rest) => (whole, [], rest)

end DecimalText

/-- The double of a decimal literal, or of `inf` or `NaN`. -/
def Double.ofText? (s : String) : Option Double :=
  let (negative, rest) := DecimalText.takeSign s.toList
  if rest = ['i', 'n', 'f'] then some (infinite negative)
  else if rest = ['N', 'a', 'N'] then some nan
  else
    let (whole, fraction, rest) := DecimalText.takeNumber rest
    if whole.isEmpty ∧ fraction.isEmpty then none
    else (DecimalText.exponent? rest).map fun e =>
      ofDecimal negative (digitsValue (whole ++ fraction)) (e - fraction.length)

end Provisioning
