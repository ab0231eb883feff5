-- Characters and parts of texts: blanks, digits, and what stands between separators.

namespace Provisioning

/-! ## Blanks -/

/-- The characters with Unicode's White_Space property. -/
def isBlank (c : Char) : Bool :=
  let n := c.toNat
  (9 ≤ n && n ≤ 13) || n == 0x20 || n == 0x85 || n == 0xA0 || n == 0x1680 ||
    (0x2000 ≤ n && n ≤ 0x200A) || n == 0x2028 || n == 0x2029 || n == 0x202F ||
    n == 0x205F || n == 0x3000

/-- A list of characters without the blanks at its ends. -/
def trimBlanks (cs : List Char) : List Char :=
  ((cs.dropWhile isBlank).reverse.dropWhile isBlank).reverse

/-- A text without the blanks at its ends. -/
def trimmed (s : String) : String := String.ofList (trimBlanks s.toList)

/-- A text without the blanks at its ends, with ASCII letters in lower case. -/
def trimmedLower (s : String) : String := (trimmed s).map Char.toLower

/-! ## Digits -/

/-- The value of a decimal digit. -/
def decimalDigit? (c : Char) : Option Nat :=
  if '0' ≤ c ∧ c ≤ '9' then some (c.toNat - '0'.toNat) else none

/-- The value of a hex digit in either case. -/
def hexDigit? (c : Char) : Option Nat :=
  if '0' ≤ c ∧ c ≤ '9' then some (c.toNat - '0'.toNat)
  else if 'a' ≤ c ∧ c ≤ 'f' then some (c.toNat - 'a'.toNat + 10)
  else if 'A' ≤ c ∧ c ≤ 'F' then some (c.toNat - 'A'.toNat + 10)
  else none

/-- The value of decimal digits, the first the highest. -/
def digitsValue (ds : List Nat) : Nat := ds.foldl (fun n d => n * 10 + d) 0

/-! ## Parts -/

/-- The parts between the characters that separate; one more than there are of
those. -/
def splitParts (separates : Char → Bool) : List Char → List (List Char)
  | [] => [[]]
  | c :: rest =>
    if separates c then [] :: splitParts separates rest
    else match splitParts separates rest with
      | part :: parts => (c :: part) :: parts
      | [] => [[c]]

/-- Parts with a separator between them. -/
def joinParts (separator : Char) : List (List Char) → List Char
  | [] => []
  | [part] => part
  | part :: parts => part ++ separator :: joinParts separator parts

theorem splitParts_ne_nil (separates : Char → Bool) (cs : List Char) :
    splitParts separates cs ≠ [] := by
  cases cs with
  | nil => simp [splitParts]
  | cons c rest =>
    simp only [splitParts]
    split
    · simp
    · split <;> simp

/-- Joining the parts between one separator gives the text back. -/
theorem joinParts_splitParts (separator : Char) (cs : List Char) :
    joinParts separator (splitParts (· == separator) cs) = cs := by
  induction cs with
  | nil => rfl
  | cons c rest ih =>
    by_cases h : c = separator
    · subst h
      simp only [splitParts, beq_self_eq_true, ↓reduceIte]
      cases hs : splitParts (· == c) rest with
      | nil => exact absurd hs (splitParts_ne_nil _ _)
      | cons part parts =>
        rw [hs] at ih
        simp [joinParts, ih]
    · simp only [splitParts, beq_iff_eq, h, ↓reduceIte]
      cases hs : splitParts (· == separator) rest with
      | nil => exact absurd hs (splitParts_ne_nil _ _)
      | cons part parts =>
        rw [hs] at ih
        cases parts <;> simp_all [joinParts]

end Provisioning
