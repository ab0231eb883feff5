-- The fewest decimal digits that read back as a given double, and the
-- layouts in which such digits are written.
import Provisioning.Number.Double

namespace Provisioning

/-- The decimal number `digits * 10 ^ exponent`. -/
structure Decimal where
  digits : Nat
  exponent : Int
deriving DecidableEq, Repr

namespace Decimal

/-- The same value without trailing zeros; zero has exponent 0. -/
def trim (d : Decimal) : Decimal :=
  if h : d.digits = 0 then ⟨0, 0⟩
  else if h10 : d.digits % 10 = 0 then trim ⟨d.digits / 10, d.exponent + 1⟩
  else d
termination_by d.digits
decreasing_by exact Nat.div_lt_self (Nat.pos_of_ne_zero h) (by decide)

end Decimal

/-! ## Shortest digits -/

namespace FiniteDouble

/-- The exponent of the first power of ten above a positive value: the value
lies in `[10 ^ (e - 1), 10 ^ e)`. The smallest double is above `10 ^ -330`, so
the scaled value is at least 1. -/
def decimalMagnitude (x : FiniteDouble) : Int :=
  ((Nat.toDigits 10 (x.units * powerOfTen 330 / unitsPerOne)).length : Int) - 330

/-- Does `c * 10 ^ k` read back as the absolute value of `x`? The values that do
reach half way to each neighbour, and include both ends when the mantissa is
even. Below a power of two the neighbour is only half as far. -/
def readsBack (x : FiniteDouble) (c : Nat) (k : Int) : Bool :=
  let value := c * powerOfTen k.toNat * (4 * unitsPerOne)
  let side := powerOfTen (-k).toNat <<< x.scale
  let below := if x.mantissa = 1 <<< 52 ∧ 0 < x.scale then 1 else 2
  let low := (4 * x.mantissa - below) * side
  let high := (4 * x.mantissa + 2) * side
  if x.mantissa % 2 = 0 then low ≤ value && value ≤ high
  else low < value && value < high

/-- The nearest multiple of `10 ^ k` that reads back, if one does. Only the two
multiples around the value need a test. -/
def onGrid? (tie : Tie) (x : FiniteDouble) (k : Int) : Option Decimal :=
  let num := x.units * powerOfTen (-k).toNat
  let den := unitsPerOne * powerOfTen k.toNat
  let low := num / den
  let near := roundDiv tie num den
  let far := if near = low then low + 1 else low
  if x.readsBack near k then some ⟨near, k⟩
  else if x.readsBack far k then some ⟨far, k⟩
  else none

/-- The shortest decimal that reads back as the absolute value of `x`; of
several the nearest, and `tie` between two equally near ones. Seventeen digits
always suffice. -/
def shortest (tie : Tie) (x : FiniteDouble) : Decimal :=
  if x.isZero then ⟨0, 0⟩
  else
    let magnitude := x.decimalMagnitude
    match (List.range 17).findSome? fun (n : Nat) =>
        x.onGrid? tie (magnitude - (n + 1 : Nat)) with
    | some d => d.trim
    | none => ⟨x.units, 0⟩

end FiniteDouble

/-! ## Layouts -/

/-- The decisions of a number format that the digits leave open. -/
structure NumberLayout where
  /-- Which of two equally near shortest decimals is written. -/
  tie : Tie
  /-- Is a number whose first digit has this exponent written without one? -/
  positional : Int → Bool
  /-- Does a whole number written without an exponent end in `.0`? -/
  keepsPoint : Bool

namespace NumberLayout

/-- Zeros and a point around digits whose first has the exponent `lead`. -/
def positionalText (layout : NumberLayout) (digits : List Char) (lead : Int) : List Char :=
  if lead < 0 then
    '0' :: '.' :: List.replicate (-lead - 1).toNat '0' ++ digits
  else
    let whole := lead.toNat + 1
    if digits.length ≤ whole then
      digits ++ List.replicate (whole - digits.length) '0' ++
        (if layout.keepsPoint then ['.', '0'] else [])
    else
      digits.take whole ++ '.' :: digits.drop whole

/-- One digit before the point and a signed exponent. -/
def exponentText (digits : List Char) (lead : Int) : List Char :=
  let fraction := digits.drop 1
  digits.take 1 ++ (if fraction.isEmpty then [] else '.' :: fraction) ++
    'e' :: (if lead < 0 then '-' else '+') :: Nat.toDigits 10 lead.natAbs

/-- A decimal without trailing zeros, as this layout writes it. -/
def decimalText (layout : NumberLayout) (d : Decimal) : List Char :=
  let digits := Nat.toDigits 10 d.digits
  let lead := d.exponent + digits.length - 1
  if layout.positional lead then layout.positionalText digits lead
  else exponentText digits lead

/-- A finite double, as this layout writes it. Zero keeps its sign. -/
def finiteText (layout : NumberLayout) (x : FiniteDouble) : String :=
  let text := layout.decimalText (x.shortest layout.tie)
  String.ofList (if x.negative then '-' :: text else text)

end NumberLayout

/-- Numbers in messages never have an exponent, and a whole number has no
point. -/
def plainLayout : NumberLayout where
  tie := .up
  positional := fun _ => true
  keepsPoint := false

/-- A double as messages show it. -/
def Double.text : Double → String
  | .finite x => plainLayout.finiteText x
  | .infinite true => "-inf"
  | .infinite false => "inf"
  | .nan => "NaN"

end Provisioning
