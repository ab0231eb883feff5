-- The decimal digits of a number: how they are written, and that they are read back.
import Provisioning.Text.Basic

namespace Provisioning

/-- Digits as characters. -/
def digitChars (ds : List Nat) : List Char := ds.map Nat.digitChar

/-- The decimal digits of a number, the first the highest. -/
def decimalDigits (n : Nat) : List Nat := (Nat.toDigits 10 n).map fun c => c.toNat - '0'.toNat

/-! ## Digits as characters -/

theorem digitChars_append (ds es : List Nat) :
    digitChars (ds ++ es) = digitChars ds ++ digitChars es := List.map_append

theorem digitChars_replicate_zero (n : Nat) :
    digitChars (List.replicate n 0) = List.replicate n '0' := List.map_replicate

theorem digitChars_take (n : Nat) (ds : List Nat) : digitChars (ds.take n) = (digitChars ds).take n :=
  List.map_take

theorem digitChars_drop (n : Nat) (ds : List Nat) : digitChars (ds.drop n) = (digitChars ds).drop n :=
  List.map_drop

theorem digitChars_eq_nil {ds : List Nat} : digitChars ds = [] ↔ ds = [] := List.map_eq_nil_iff

theorem digitChars_zero : digitChars [0] = ['0'] := rfl

/-! ## One digit -/

theorem decimalDigit?_digitChar {d : Nat} (h : d < 10) : decimalDigit? (Nat.digitChar d) = some d := by
  revert d
  decide

theorem digitChar_of_isDigit {c : Char} (h : c.isDigit = true) :
    c.toNat - '0'.toNat < 10 ∧ Nat.digitChar (c.toNat - '0'.toNat) = c := by
  have hrange : 48 ≤ c.toNat ∧ c.toNat ≤ 57 := by
    simpa [Char.isDigit, UInt32.le_iff_toNat_le] using h
  obtain ⟨d, hd⟩ := Nat.exists_eq_add_of_le hrange.1
  have hchar : ∀ d < 10, Nat.digitChar (48 + d - '0'.toNat) = Char.ofNat (48 + d) := by decide
  constructor
  · rw [hd, show '0'.toNat = 48 from rfl]
    omega
  · rw [hd, hchar d (by omega), ← hd, Char.ofNat_toNat]

/-! ## Digits of a number -/

theorem lt_of_mem_decimalDigits {n d : Nat} (h : d ∈ decimalDigits n) : d < 10 := by
  obtain ⟨c, hc, rfl⟩ := List.mem_map.mp h
  exact (digitChar_of_isDigit (Nat.isDigit_of_mem_toDigits (by decide) (by decide) hc)).1

theorem digitChars_decimalDigits (n : Nat) : digitChars (decimalDigits n) = Nat.toDigits 10 n := by
  rw [digitChars, decimalDigits, List.map_map]
  conv => rhs; rw [← List.map_id (Nat.toDigits 10 n)]
  apply List.map_congr_left
  intro c hc
  exact (digitChar_of_isDigit (Nat.isDigit_of_mem_toDigits (by decide) (by decide) hc)).2

theorem decimalDigits_length (n : Nat) : (decimalDigits n).length = (Nat.toDigits 10 n).length :=
  List.length_map _

theorem decimalDigits_ne_nil (n : Nat) : decimalDigits n ≠ [] := by
  simp [decimalDigits]

theorem decimalDigits_of_lt {n : Nat} (h : n < 10) : decimalDigits n = [n] := by
  rw [decimalDigits, Nat.toDigits_of_lt_base h, List.map_singleton,
    Nat.toNat_digitChar_of_lt_ten h]
  simp

theorem decimalDigits_of_le {n : Nat} (h : 10 ≤ n) :
    decimalDigits n = decimalDigits (n / 10) ++ [n % 10] := by
  rw [decimalDigits, Nat.toDigits_of_base_le (by decide) h, List.map_append, List.map_singleton,
    Nat.toNat_digitChar_of_lt_ten (Nat.mod_lt n (by decide)), decimalDigits]
  simp

/-- No number but zero starts with a zero. -/
theorem head_decimalDigits {n : Nat} (h : n ≠ 0) : ∃ d ds, decimalDigits n = d :: ds ∧ d ≠ 0 := by
  induction n using Nat.strongRecOn with
  | ind n ih =>
    by_cases hn : n < 10
    · exact ⟨n, [], decimalDigits_of_lt hn, h⟩
    · obtain ⟨d, ds, hds, hd⟩ := ih (n / 10) (by omega) (by omega)
      exact ⟨d, ds ++ [n % 10], by rw [decimalDigits_of_le (by omega), hds, List.cons_append], hd⟩

theorem digitsValue_append (ds : List Nat) (d : Nat) :
    digitsValue (ds ++ [d]) = digitsValue ds * 10 + d := by
  simp [digitsValue]

theorem digitsValue_decimalDigits (n : Nat) : digitsValue (decimalDigits n) = n := by
  induction n using Nat.strongRecOn with
  | ind n ih =>
    by_cases hn : n < 10
    · rw [decimalDigits_of_lt hn]
      simp [digitsValue]
    · rw [decimalDigits_of_le (by omega), digitsValue_append, ih (n / 10) (by omega)]
      omega

end Provisioning
