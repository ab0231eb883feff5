-- Lengths of time in whole nanoseconds, and their exchange with seconds as
-- a double.
import Provisioning.Number.Double

namespace Provisioning

/-- How many nanoseconds make a second. -/
def nanosPerSecond : Nat := 1_000_000_000

/-- How many nanoseconds make a millisecond. -/
def nanosPerMilli : Nat := 1_000_000

/-- Seconds past `2 ^ 64` are out of reach. -/
def durationLimit : Nat := UInt64.size * nanosPerSecond

/-- A length of time below `2 ^ 64` seconds. -/
structure Duration where
  nanos : Nat
  fits : nanos < durationLimit
deriving DecidableEq, Repr

namespace Duration

/-- The whole seconds. -/
def seconds (d : Duration) : Nat := d.nanos / nanosPerSecond

/-- The nanoseconds past the whole seconds. -/
def subsecNanos (d : Duration) : Nat := d.nanos % nanosPerSecond

def isZero (d : Duration) : Bool := d.nanos == 0

/-- The length in milliseconds, rounded up. -/
def ceilMillis (d : Duration) : Nat := (d.nanos + (nanosPerMilli - 1)) / nanosPerMilli

/-- A number of nanoseconds, if it is in reach. -/
def ofNanos? (nanos : Nat) : Option Duration :=
  if h : nanos < durationLimit then some ⟨nanos, h⟩ else none

/-- A small number of whole seconds. -/
def ofSeconds (seconds : Nat) (h : seconds < UInt64.size := by decide) : Duration :=
  ⟨seconds * nanosPerSecond, Nat.mul_lt_mul_of_pos_right h (by decide)⟩

/-- The nearest whole number of nanoseconds to a double of seconds, ties to even.
Nothing stands for a value below zero, past the limit, or that is no number. -/
def ofSecondsDouble? : Double → Option Duration
  | .finite x =>
    if x.negative ∧ x.mantissa ≠ 0 then none
    else ofNanos? (roundDiv .toEven (x.units * nanosPerSecond) unitsPerOne)
  | _ => none

/-- The length in seconds as a double: the whole seconds and the rest are each
rounded, and so is their sum. -/
def toSecondsDouble (d : Duration) : Double :=
  match Double.ofNat d.seconds, Double.ofQuotient false d.subsecNanos nanosPerSecond with
  | .finite whole, .finite rest => whole.addMagnitudes rest
  | _, _ => .nan

end Duration

end Provisioning
