-- Points in time and their text. The calendar is the Gregorian one, carried
-- back before its beginning, with a year 0.

namespace Provisioning

/-! ## The calendar -/

/-- A day of the calendar. -/
structure Date where
  year : Int
  month : Nat
  day : Nat
deriving DecidableEq, Repr

def isLeapYear (y : Int) : Bool := y % 4 == 0 && (y % 100 != 0 || y % 400 == 0)

/-- The days from the first of January of year 0 to that of year `y`. -/
def daysBeforeYear (y : Int) : Int := 365 * y + (y - 1) / 4 - (y - 1) / 100 + (y - 1) / 400 + 1

/-- The year of a day counted from the first of January of year 0. The mean length
of a year is 146097 / 400 days, so the first guess is at most one off. -/
def yearOfDay (day : Int) : Int :=
  let guess := 400 * day / 146097
  if day < daysBeforeYear guess then guess - 1
  else if daysBeforeYear (guess + 1) ≤ day then guess + 1
  else guess

/-- The lengths of the months. -/
def monthLengths (leap : Bool) : List Nat :=
  [31, if leap then 29 else 28, 31, 30, 31, 30, 31, 31, 30, 31, 30, 31]

/-- The month and day of a day of the year, both counted from 0; `month` is the
month that the lengths start with. -/
def monthOfDay (month : Nat) : (lengths : List Nat) → (day : Nat) → Nat × Nat
  | [], day => (month, day)
  | n :: lengths, day =>
    if day < n then (month, day) else monthOfDay (month + 1) lengths (day - n)

/-- The date of a day counted from the first of January of year 0. -/
def Date.ofDay (day : Int) : Date :=
  let year := yearOfDay day
  let (month, rest) := monthOfDay 0 (monthLengths (isLeapYear year)) (day - daysBeforeYear year).toNat
  ⟨year, month + 1, rest + 1⟩

/-! ## Timestamps -/

def secondsPerDay : Int := 86400

/-- The first of January 1970, counted in days from that of year 0. -/
def epochDay : Int := daysBeforeYear 1970

/-- A point in time: seconds since 1970 and the nanoseconds past them, which may go
on beyond the second. In the last second of a minute those beyond it are a leap second. -/
structure Timestamp where
  seconds : Int
  nanos : Nat
deriving DecidableEq, Repr

namespace Timestamp

/-- The day, counted from the first of January of year 0. -/
def day (t : Timestamp) : Int := t.seconds / secondsPerDay + epochDay

def secondOfDay (t : Timestamp) : Nat := (t.seconds % secondsPerDay).toNat

def date (t : Timestamp) : Date := .ofDay t.day

/-- The years that there are dates for. -/
def yearInRange (y : Int) : Bool := -262143 ≤ y && y ≤ 262142

/-- Is there such a time? -/
def isValid (t : Timestamp) : Bool := t.nanos < 2_000_000_000 && yearInRange t.date.year

/-- Is this more than its second holds, though the second is not the last of its minute?
Such a time exists, but it is not made from a count of seconds. -/
def isOverfull (t : Timestamp) : Bool := 1_000_000_000 ≤ t.nanos && t.secondOfDay % 60 != 59

/-! ## Text -/

/-- A number with zeros in front up to a width. -/
def padded (width n : Nat) : List Char :=
  let digits := Nat.toDigits 10 n
  List.replicate (width - digits.length) '0' ++ digits

/-- A year: four digits, and a sign when four digits do not hold it. -/
def yearText (y : Int) : List Char :=
  if 0 ≤ y ∧ y ≤ 9999 then padded 4 y.toNat
  else (if y < 0 then '-' else '+') :: padded 4 y.natAbs

/-- The time as text, to the microsecond; what is below is cut off. -/
def text (t : Timestamp) : String :=
  let d := t.date
  let s := t.secondOfDay
  let second := s % 60 + t.nanos / 1_000_000_000
  let micros := t.nanos % 1_000_000_000 / 1000
  String.ofList (yearText d.year ++ '-' :: padded 2 d.month ++ '-' :: padded 2 d.day ++
    'T' :: padded 2 (s / 3600) ++ ':' :: padded 2 (s / 60 % 60) ++ ':' :: padded 2 second ++
    '.' :: padded 6 micros ++ "+00:00".toList)

end Timestamp

end Provisioning
