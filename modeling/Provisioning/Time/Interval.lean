-- Intervals as people write them: numbers with units, such as `1h 30m` or
-- `1.5s`. One pass over the characters, with byte offsets for the faults.
import Provisioning.Text.Basic
import Provisioning.Text.Quoted
import Provisioning.Time.Duration

namespace Provisioning

/-- Why a text is no interval. Offsets count bytes. -/
inductive IntervalFault
  | invalidCharacter (offset : Nat)
  | numberExpected (offset : Nat)
  | unitNeeded (value : Nat)
  | unknownUnit (unit : String)
  /-- Too large, or not a whole number of nanoseconds. -/
  | unrepresentable
  | empty
deriving DecidableEq, Repr

def IntervalFault.message : IntervalFault → String
  | .invalidCharacter offset => "invalid character at " ++ toString offset
  | .numberExpected offset => "expected number at " ++ toString offset
  | .unitNeeded value =>
    "time unit needed, for example " ++ toString value ++ "sec or " ++ toString value ++ "ms"
  | .unknownUnit unit =>
    "unknown time unit " ++ quoted unit ++ ", supported units: ns, us/µs, ms, sec, min, hours, " ++
      "days, weeks, months, years (and few variations)"
  | .unrepresentable =>
    "number is too large or cannot be represented without a lack of precision " ++
      "(values below 1ns are not supported)"
  | .empty => "value was empty"

/-! ## Units -/

inductive TimeUnit
  | nanosecond
  | microsecond
  | millisecond
  | second
  | minute
  | hour
  | day
  | week
  | month
  | year
deriving DecidableEq, Repr

namespace TimeUnit

def ofName? : String → Option TimeUnit
  | "nanos" | "nsec" | "ns" => some nanosecond
  | "usec" | "us" | "µs" => some microsecond
  | "millis" | "msec" | "ms" => some millisecond
  | "seconds" | "second" | "secs" | "sec" | "s" => some second
  | "minutes" | "minute" | "min" | "mins" | "m" => some minute
  | "hours" | "hour" | "hrs" | "hr" | "h" => some hour
  | "days" | "day" | "d" => some day
  | "weeks" | "week" | "wks" | "wk" | "w" => some week
  | "months" | "month" | "M" => some month
  | "years" | "year" | "yrs" | "yr" | "y" => some year
  | _ => none

/-- Units below a second are counted in nanoseconds, the others in seconds. -/
def belowSecond : TimeUnit → Bool
  | nanosecond | microsecond | millisecond => true
  | _ => false

/-- One unit, in nanoseconds below a second and in seconds above. A month has
30.44 days and a year 365.25. -/
def size : TimeUnit → Nat
  | nanosecond => 1
  | microsecond => 1000
  | millisecond => 1000000
  | second => 1
  | minute => 60
  | hour => 3600
  | day => 86400
  | week => 604800
  | month => 2630016
  | year => 31557600

/-- What a fraction of the unit is counted in: nanoseconds (true) or seconds, and
how many make one unit. A nanosecond has no fractions. -/
def fine? : TimeUnit → Option (Bool × Nat)
  | nanosecond => none
  | microsecond => some (true, 1000)
  | millisecond => some (true, 1000000)
  | second => some (true, 1000000000)
  | minute => some (true, 60000000000)
  | u => some (false, u.size)

end TimeUnit

/-! ## Sums -/

/-- A count, if it has 64 bits. -/
def word64? (n : Nat) : Except IntervalFault Nat :=
  if n < UInt64.size then .ok n else .error .unrepresentable

/-- Adds a count of nanoseconds or of seconds to a total in nanoseconds. -/
def addCount (total : Nat) (inNanos : Bool) (count : Nat) : Except IntervalFault Nat := do
  if inNanos then let _ ← word64? (total % nanosPerSecond + count)
  let sum := total + (if inNanos then count else count * nanosPerSecond)
  if sum < durationLimit then return sum else throw .unrepresentable

/-- The digits after a point: their value, and the power of ten below it. -/
structure IntervalFraction where
  numerator : Nat
  denominator : Nat

/-- Adds a number of units to a total in nanoseconds. -/
def addUnits (total value : Nat) (fraction : Option IntervalFraction) (unit : List Char) :
    Except IntervalFault Nat := do
  let name := String.ofList unit
  let some u := TimeUnit.ofName? name
    | throw (if unit.isEmpty then .unitNeeded value else .unknownUnit name)
  let total ← addCount total u.belowSecond (← word64? (value * u.size))
  match fraction with
  | none => return total
  | some f =>
    let some (inNanos, size) := u.fine? | throw .unrepresentable
    let scaled ← word64? (f.numerator * size)
    if scaled % f.denominator ≠ 0 then throw .unrepresentable
    addCount total inNanos (scaled / f.denominator)

/-! ## Reading -/

/-- Where a reader of intervals stands. -/
inductive IntervalPosition
  /-- Before a number; blanks since `start` are passed over. -/
  | gap (start : Nat)
  | whole (value : Nat)
  /-- After a point. A fault here is reported at `mark`. -/
  | fraction (value : Nat) (digits : IntervalFraction) (mark : Nat)
  /-- In a unit, its letters last first. -/
  | unit (value : Nat) (digits : Option IntervalFraction) (letters : List Char)

def isUnitLetter (c : Char) : Bool :=
  ('a' ≤ c && c ≤ 'z') || ('A' ≤ c && c ≤ 'Z') || c == 'µ'

/-- One more character at byte `offset`. -/
def IntervalPosition.take (total offset : Nat) (c : Char) :
    IntervalPosition → Except IntervalFault (Nat × IntervalPosition)
  | .gap start =>
    match decimalDigit? c with
    | some d => .ok (total, .whole d)
    | none => if isBlank c then .ok (total, .gap start) else .error (.numberExpected start)
  | .whole value => do
    match decimalDigit? c with
    | some d => return (total, .whole (← word64? (value * 10 + d)))
    | none =>
      if isBlank c then return (total, .whole value)
      else if isUnitLetter c then return (total, .unit value none [c])
      else if c = '.' then return (total, .fraction value ⟨0, 1⟩ offset)
      else throw (.invalidCharacter offset)
  | .fraction value f mark => do
    match decimalDigit? c with
    | some d =>
      let denominator ← word64? (f.denominator * 10)
      let numerator ← word64? (f.numerator * 10 + d)
      return (total, .fraction value ⟨numerator, denominator⟩ (offset + c.utf8Size))
    | none =>
      if isBlank c then return (total, .fraction value f (offset + c.utf8Size))
      else if isUnitLetter c then
        if f.denominator = 1 then throw (.invalidCharacter mark)
        return (total, .unit value (some f) [c])
      else throw (.invalidCharacter mark)
  | .unit value f letters => do
    match decimalDigit? c with
    | some d => return (← addUnits total value f letters.reverse, .whole d)
    | none =>
      if isBlank c then
        return (← addUnits total value f letters.reverse, .gap (offset + c.utf8Size))
      else if isUnitLetter c then return (total, .unit value f (c :: letters))
      else throw (.invalidCharacter offset)

/-- The total when the text ends here. -/
def IntervalPosition.atEnd (total : Nat) : IntervalPosition → Except IntervalFault Nat
  | .gap _ => .ok total
  | .whole value => addUnits total value none []
  | .fraction value f mark =>
    if f.denominator = 1 then .error (.invalidCharacter mark)
    else addUnits total value (some f) []
  | .unit value f letters => addUnits total value f letters.reverse

/-- Reads on from byte `offset`. -/
def readInterval (total offset : Nat) (position : IntervalPosition) :
    List Char → Except IntervalFault Nat
  | [] => position.atEnd total
  | c :: rest =>
    match position.take total offset c with
    | .error fault => .error fault
    | .ok (total, next) => readInterval total (offset + c.utf8Size) next rest

/-- The length of an interval. Zero needs no unit. -/
def Duration.ofInterval (s : String) : Except IntervalFault Duration := do
  if s = "0" then return .ofSeconds 0
  if s.toList.all isBlank then throw .empty
  let nanos ← readInterval 0 0 (.gap 0) s.toList
  match Duration.ofNanos? nanos with
  | some d => return d
  | none => throw .unrepresentable

end Provisioning
