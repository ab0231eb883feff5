-- Numbers of a JSON text: what a literal says, the number that it is read
-- as, and the text that a number is written as.
import Provisioning.Json.Fault
import Provisioning.Number.Shortest
import Provisioning.Text.Basic

namespace Provisioning.Json

/-- A number literal, by its digits. -/
structure NumberLiteral where
  negative : Bool
  whole : List Nat
  fraction : List Nat
  /-- Is there a point or an exponent? -/
  isWhole : Bool
  exponentNegative : Bool
  exponent : List Nat
deriving DecidableEq, Repr

/-- A number as it is kept: an integer of 64 bits, signed or not, or a finite
double. -/
inductive Number
  | integer (n : Int)
  | float (x : FiniteDouble)
deriving DecidableEq, Repr

/-! ## Reading -/

/-- Digits after `n`, as long as the value has 64 bits. Gives the value and the
digits that are left. -/
def gather (n : Nat) : List Nat → Nat × List Nat
  | [] => (n, [])
  | d :: ds => if n * 10 + d < UInt64.size then gather (n * 10 + d) ds else (n, d :: ds)

/-- `10 ^ e` as a double. -/
def tenPower (e : Nat) : Double := .ofNat (powerOfTen e)

/-- A value times `10 ^ e`, rounded once. The largest power at hand is
`10 ^ 308`, and past it only zero has a product. -/
def scaleUp? (x : FiniteDouble) (e : Nat) : Option FiniteDouble :=
  if e ≤ 308 then
    match tenPower e with
    | .finite p => match x.mulMagnitudes p with
      | .finite y => some y
      | _ => none
    | _ => none
  else if x.isZero then some x
  else none

/-- A value divided by a power of ten that is a double. -/
def divPower (x : FiniteDouble) (e : Nat) : FiniteDouble :=
  match tenPower e with
  | .finite p => match x.divMagnitudes p with
    | .finite y => y
    | _ => x
  | _ => x

/-- A value divided by `10 ^ e`. Past `10 ^ 308` the quotient is rounded twice,
and past `10 ^ 616` nothing is left of a value of 64 bits. -/
def scaleDown (x : FiniteDouble) (e : Nat) : FiniteDouble :=
  if e ≤ 308 then divPower x e
  else if e ≤ 616 then divPower (divPower x 308) (e - 308)
  else divPower (divPower x 308) 308

/-- The double of `significand * 10 ^ e`, if it is finite. -/
def scaled? (significand : Nat) (e : Int) : Option FiniteDouble :=
  match Double.ofNat significand with
  | .finite x => if 0 ≤ e then scaleUp? x e.toNat else some (scaleDown x e.natAbs)
  | _ => none

namespace NumberLiteral

/-- The digits that count, and the power of ten that they count. The digits
after the point go on where the whole digits stopped; those past 64 bits
are left out. -/
def significand (l : NumberLiteral) : Nat × Int :=
  let (whole, skipped) := gather 0 l.whole
  let (all, left) := gather whole l.fraction
  let shift : Int := digitsValue l.exponent
  (all, (skipped.length : Int) - (l.fraction.length - left.length : Nat) +
    (if l.exponentNegative then -shift else shift))

/-- A literal as a finite double. -/
def toDouble? (l : NumberLiteral) : Option FiniteDouble :=
  let (n, e) := l.significand
  (scaled? n e).map fun x => if l.negative then x.neg else x

/-- The number that a literal is read as. A whole literal that has 64 bits is an
integer, but `-0` is a double, since integers have no negative zero. -/
def toNumber (l : NumberLiteral) : Except SyntaxFault Number :=
  let (n, skipped) := gather 0 l.whole
  if l.isWhole ∧ skipped.isEmpty ∧ l.negative = false then .ok (.integer n)
  else if l.isWhole ∧ skipped.isEmpty ∧ n ≠ 0 ∧ n ≤ UInt64.size / 2 then .ok (.integer (-n))
  else
    match l.toDouble? with
    | some x => .ok (.float x)
    | none => .error .numberOutOfRange

end NumberLiteral

/-! ## Writing -/

/-- Numbers in JSON keep a point or an exponent when they are doubles. Exponents
from -5 to 15 are written out. -/
def jsonLayout : NumberLayout where
  tie := .toEven
  positional := fun lead => -6 < lead && lead < 16
  keepsPoint := true

namespace Number

def text : Number → String
  | .integer n => toString n
  | .float x => jsonLayout.finiteText x

/-- A number as a double; an integer past 53 bits is rounded. -/
def toDouble : Number → Double
  | .integer n => .ofQuotient (decide (n < 0)) n.natAbs 1
  | .float x => .finite x

end Number

end Provisioning.Json
