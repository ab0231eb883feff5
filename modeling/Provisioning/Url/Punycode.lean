-- Punycode: a label of a domain name with letters beyond ASCII as a label of
-- ASCII. Its plain letters come first, and what follows tells, from the lowest
-- code point up, how many places to go on to the next letter to insert.
import Provisioning.Text.Basic

namespace Provisioning.Punycode

/-! ## Digits -/

/-- Digits to base 36: letters, then decimal digits. -/
def digit (d : Nat) : Char := if d < 26 then Char.ofNat (97 + d) else Char.ofNat (22 + d)

def digit? (c : Char) : Option Nat :=
  match decimalDigit? c with
  | some d => some (d + 26)
  | none => if 'a' ≤ c ∧ c ≤ 'z' then some (c.toNat - 'a'.toNat) else none

/-- Up to which value a digit is the last one of a number. -/
def threshold (position bias : Nat) : Nat := Nat.min 26 (Nat.max 1 (position - bias))

theorem threshold_bounds (position bias : Nat) :
    1 ≤ threshold position bias ∧ threshold position bias ≤ 26 := by
  simp only [threshold, Nat.min_def, Nat.max_def]
  split <;> split <;> omega

/-- Divides until little is left, counting the divisions. -/
def shrink (delta steps : Nat) : Nat × Nat :=
  if 455 < delta then shrink (delta / 35) (steps + 1) else (delta, steps)
termination_by delta
decreasing_by omega

/-- The bias after a number, fitted to its size. -/
def adapt (delta count : Nat) (first : Bool) : Nat :=
  let delta := if first then delta / 700 else delta / 2
  let (delta, steps) := shrink (delta + delta / count) 0
  36 * steps + 36 * delta / (delta + 38)

/-! ## Encoding -/

/-- A number in digits, the lowest first. -/
def writeNumber (bias position n : Nat) : List Char :=
  let t := threshold position bias
  if n < t then [digit n]
  else digit (t + (n - t) % (36 - t)) :: writeNumber bias (position + 36) ((n - t) / (36 - t))
termination_by n
decreasing_by
  have h := threshold_bounds position bias
  have : (n - threshold position bias) / (36 - threshold position bias) ≤
      n - threshold position bias := Nat.div_le_self _ _
  omega

/-- How far the encoding has come: the output, the places passed since the last
insertion, and how many letters are written. -/
structure Writing where
  out : List Char
  delta : Nat := 0
  bias : Nat := 72
  count : Nat

/-- Passes one letter of the label on the way to the letters `m`. -/
def Writing.pass (plain m : Nat) (w : Writing) (c : Char) : Writing :=
  if c.toNat < m then { w with delta := w.delta + 1 }
  else if c.toNat = m then
    { out := w.out ++ writeNumber w.bias 36 w.delta
      delta := 0
      bias := adapt w.delta (w.count + 1) (w.count == plain)
      count := w.count + 1 }
  else w

/-- Inserts the letters with the given code points, from the lowest. -/
def Writing.insertAll (label : List Char) (plain : Nat) : List Nat → Nat → Writing → Writing
  | [], _, w => w
  | m :: rest, next, w =>
    let w := label.foldl (pass plain m) { w with delta := w.delta + (m - next) * (w.count + 1) }
    insertAll label plain rest (m + 1) { w with delta := w.delta + 1 }

/-- Inserts a number into an ascending list, once. -/
def insertOnce (n : Nat) : List Nat → List Nat
  | [] => [n]
  | m :: rest =>
    if n < m then n :: m :: rest else if n = m then m :: rest else m :: insertOnce n rest

/-- The encoded form of a label, without the mark in front. -/
def encode (label : List Char) : List Char :=
  let plain := label.filter fun c => c.toNat < 0x80
  let others := (label.filter fun c => 0x80 ≤ c.toNat).map Char.toNat
  let start := if plain.isEmpty then [] else plain ++ ['-']
  ((Writing.insertAll label plain.length (others.foldr insertOnce []) 0x80
    { out := start, count := plain.length }).out)

/-! ## Decoding -/

/-- Reads a number: its value and what follows. -/
def readNumber (bias position weight value : Nat) : List Char → Option (Nat × List Char)
  | [] => none
  | c :: rest =>
    match digit? c with
    | none => none
    | some d =>
      let t := threshold position bias
      let value := value + d * weight
      if d < t then some (value, rest)
      else readNumber bias (position + 36) (weight * (36 - t)) value rest

/-- What follows a number is shorter. -/
theorem readNumber_length {s rest : List Char} {bias position weight value n : Nat}
    (h : readNumber bias position weight value s = some (n, rest)) : rest.length < s.length := by
  induction s generalizing position weight value with
  | nil => simp [readNumber] at h
  | cons c s ih =>
    simp only [readNumber] at h
    split at h
    · simp at h
    · split at h
      · simp at h; rw [← h.2]; simp
      · have := ih h; simp; omega

/-- Inserts letters as the numbers say. -/
def insertLetters (label : List Char) (codePoint index bias : Nat) (first : Bool) (s : List Char) :
    Option (List Char) :=
  if s.isEmpty then some label
  else
    match h : readNumber bias 36 1 0 s with
    | none => none
    | some (n, rest) =>
      let count := label.length + 1
      let codePoint := codePoint + (index + n) / count
      let index := (index + n) % count
      if codePoint.isValidChar then
        insertLetters (label.take index ++ Char.ofNat codePoint :: label.drop index) codePoint
          (index + 1) (adapt n count first) false rest
      else none
termination_by s.length
decreasing_by exact readNumber_length h

/-- The label of an encoded form. -/
def decode? (s : List Char) : Option (List Char) :=
  let afterDash := (s.reverse.takeWhile (· != '-')).reverse
  let plain := (s.take (s.length - afterDash.length)).dropLast
  insertLetters plain 0x80 0 72 true afterDash

end Provisioning.Punycode
