-- Doubles (binary64) as exact values. A finite double is a whole number of
-- units of `2 ^ -1074`, so sums, products and comparisons are arithmetic on
-- natural numbers and every operation rounds exactly once.
import Provisioning.Number.Rounding

namespace Provisioning

/-- A finite double: `mantissa * 2 ^ scale` units of `2 ^ -1074`. The mantissa
has 53 bits, and fewer only at scale 0, so each value has one form. -/
structure FiniteDouble where
  negative : Bool
  mantissa : Nat
  scale : Nat
  normal : mantissa < 1 <<< 53 ∧ scale ≤ 2045 ∧ (scale = 0 ∨ 1 <<< 52 ≤ mantissa)
deriving DecidableEq, Repr

/-- Any double. The sign of a NaN is never shown and is not kept. -/
inductive Double
  | finite (x : FiniteDouble)
  | infinite (negative : Bool)
  | nan
deriving DecidableEq, Repr

/-- How many units make 1. -/
def unitsPerOne : Nat := 1 <<< 1074

/-- `10 ^ e`. -/
def powerOfTen (e : Nat) : Nat := Nat.pow 10 e

/-! ## Finite doubles -/

namespace FiniteDouble

/-- The absolute value, in units of `2 ^ -1074`. -/
def units (x : FiniteDouble) : Nat := x.mantissa <<< x.scale

def isZero (x : FiniteDouble) : Bool := x.mantissa == 0

/-- Greater than zero; neither zero is. -/
def isPositive (x : FiniteDouble) : Bool := !x.negative && !x.isZero

/-- The same value with the other sign. -/
def neg (x : FiniteDouble) : FiniteDouble := { x with negative := !x.negative }

end FiniteDouble

/-! ## Rounding to a double -/

namespace Double

/-- The double with this mantissa and scale; infinite when it is none. -/
def ofParts (negative : Bool) (mantissa scale : Nat) : Double :=
  if h : mantissa < 1 <<< 53 ∧ scale ≤ 2045 ∧ (scale = 0 ∨ 1 <<< 52 ≤ mantissa) then
    finite { negative, mantissa, scale, normal := h }
  else
    infinite negative

/-- The double nearest to `num / den`, ties to even. A value past the largest
double is infinite. -/
def ofQuotient (negative : Bool) (num den : Nat) : Double :=
  let units := num * unitsPerOne
  let scale := (units / den).log2 - 52
  let mantissa := roundDiv .toEven units (den <<< scale)
  if mantissa < 1 <<< 53 then ofParts negative mantissa scale
  else ofParts negative (1 <<< 52) (scale + 1)

/-- The double nearest to a natural number. -/
def ofNat (n : Nat) : Double := ofQuotient false n 1

def zero : Double := ofNat 0

def neg : Double → Double
  | finite x => finite x.neg
  | infinite negative => infinite (!negative)
  | nan => nan

def isFinite : Double → Bool
  | finite _ => true
  | _ => false

/-- Greater than zero. A NaN is not. -/
def isPositive : Double → Bool
  | finite x => x.isPositive
  | infinite negative => !negative
  | nan => false

end Double

/-! ## Operations that round once -/

namespace FiniteDouble

/-- The rounded sum of two absolute values. -/
def addMagnitudes (x y : FiniteDouble) : Double :=
  .ofQuotient false (x.units + y.units) unitsPerOne

/-- The rounded product of two absolute values. -/
def mulMagnitudes (x y : FiniteDouble) : Double :=
  .ofQuotient false (x.units * y.units) (unitsPerOne * unitsPerOne)

/-- The rounded quotient of two absolute values; the second is not zero. -/
def divMagnitudes (x y : FiniteDouble) : Double :=
  .ofQuotient false x.units y.units

end FiniteDouble

end Provisioning
