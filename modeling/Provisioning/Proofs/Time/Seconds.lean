-- Seconds as a double and the length of time they come to. A double below `2 ^ 64` comes
-- to the nearest number of nanoseconds, which is then in reach: the doubles there lie far
-- enough apart for rounding to stay below the limit.
import Provisioning.Proofs.Number.Nearest
import Provisioning.Time.Duration

namespace Provisioning

/-- The exact value of a finite double. -/
def FiniteDouble.value (x : FiniteDouble) : ℚ :=
  (if x.negative then -1 else 1) * ((x.units : ℚ) / unitsPerOne)

/-! ## Shifts as powers -/

/-- A second as a power, without its number ever being computed. -/
theorem unitsPerOne_eq {k : Nat} (h : k = 1074) : unitsPerOne = 2 ^ k := by
  rw [unitsPerOne, ← h, Nat.shiftLeft_eq, Nat.one_mul]

theorem unitsPerOne_pos : 0 < unitsPerOne := by
  rw [unitsPerOne_eq rfl]
  positivity

namespace FiniteDouble

theorem units_eq (x : FiniteDouble) : x.units = x.mantissa * 2 ^ x.scale := Nat.shiftLeft_eq _ _

theorem isNormal (x : FiniteDouble) :
    x.mantissa < 2 ^ 53 ∧ x.scale ≤ 2045 ∧ (x.scale = 0 ∨ 2 ^ 52 ≤ x.mantissa) := x.normal

/-! ## Positive doubles -/

theorem value_of_positive {x : FiniteDouble} (h : x.isPositive = true) :
    x.value = (x.units : ℚ) / unitsPerOne := by
  have hsign : x.negative = false := by
    simp only [isPositive, Bool.and_eq_true, Bool.not_eq_true'] at h
    exact h.1
  rw [value, hsign, if_neg Bool.false_ne_true, one_mul]

theorem value_lt_iff {x : FiniteDouble} (h : x.isPositive = true) (n : Nat) :
    x.value < n ↔ x.units < n * unitsPerOne := by
  have hpos : (0 : ℚ) < unitsPerOne := by exact_mod_cast unitsPerOne_pos
  rw [value_of_positive h, div_lt_iff₀ hpos]
  exact_mod_cast Iff.rfl

/-- The double next below `2 ^ 64` is a whole second away, and more. -/
theorem units_add_le {x : FiniteDouble} (h : x.units < 2 ^ 64 * unitsPerOne) :
    x.units + unitsPerOne ≤ 2 ^ 64 * unitsPerOne := by
  obtain ⟨hmantissa, -, -⟩ := x.isNormal
  rw [units_eq] at *
  -- From this scale on a double is a whole number of seconds. Below it, it is far from the limit.
  by_cases hscale : 1074 ≤ x.scale
  · obtain ⟨k, hk⟩ := Nat.exists_eq_add_of_le' hscale
    have hsplit : ∀ n, x.mantissa * 2 ^ (k + n) = x.mantissa * 2 ^ k * 2 ^ n := by
      intro n
      rw [Nat.pow_add, Nat.mul_assoc]
    rw [hk, hsplit, ← unitsPerOne_eq rfl] at h ⊢
    have hbelow := Nat.lt_of_mul_lt_mul_right h
    rw [← Nat.succ_mul]
    exact Nat.mul_le_mul_right _ hbelow
  · have hpow : 2 ^ x.scale ≤ unitsPerOne := by
      have hle : x.scale ≤ 1074 := by omega
      rw [unitsPerOne_eq rfl]
      gcongr
      decide
    have hsmall := Nat.mul_le_mul (Nat.le_of_lt hmantissa) hpow
    omega

end FiniteDouble

/-! ## The length of a number of seconds -/

namespace Duration

theorem ofSecondsDouble?_of_positive {x : FiniteDouble} (h : x.isPositive = true) :
    ofSecondsDouble? (.finite x) =
      ofNanos? (roundDiv .toEven (x.units * nanosPerSecond) unitsPerOne) := by
  have hsign : x.negative = false := by
    simp only [FiniteDouble.isPositive, Bool.and_eq_true, Bool.not_eq_true'] at h
    exact h.1
  simp [ofSecondsDouble?, hsign]

/-- Below `2 ^ 64` the length is the nearest number of nanoseconds. -/
theorem ofSecondsDouble?_of_lt {x : FiniteDouble} (h : x.isPositive = true)
    (hlt : x.value < 2 ^ 64) :
    ∃ d, ofSecondsDouble? (.finite x) = some d ∧ IsNearest d.nanos (x.value * nanosPerSecond) := by
  have hunits : x.units < 2 ^ 64 * unitsPerOne := by
    rw [← FiniteDouble.value_lt_iff h]
    exact_mod_cast hlt
  have hroom := FiniteDouble.units_add_le hunits
  have hround := roundDiv_le_half .toEven (x.units * nanosPerSecond) unitsPerOne unitsPerOne_pos
  have hnearest := isNearest_roundDiv (x.units * nanosPerSecond) unitsPerOne_pos
  rw [ofSecondsDouble?_of_positive h]
  generalize roundDiv .toEven (x.units * nanosPerSecond) unitsPerOne = n at *
  have hreach : n < durationLimit := by
    apply Nat.lt_of_mul_lt_mul_right (a := unitsPerOne)
    have := unitsPerOne_pos
    unfold durationLimit UInt64.size nanosPerSecond at *
    omega
  refine ⟨⟨n, hreach⟩, ?_, ?_⟩
  · rw [ofNanos?, dif_pos hreach]
  · have hvalue : x.value * nanosPerSecond =
        ((x.units * nanosPerSecond : Nat) : ℚ) / unitsPerOne := by
      rw [FiniteDouble.value_of_positive h]
      push_cast
      ring
    rw [hvalue]
    exact hnearest

/-- From `2 ^ 64` on no length stands for it. -/
theorem ofSecondsDouble?_of_ge {x : FiniteDouble} (h : x.isPositive = true)
    (hge : 2 ^ 64 ≤ x.value) : ofSecondsDouble? (.finite x) = none := by
  have hunits : 2 ^ 64 * unitsPerOne ≤ x.units := by
    rw [← Nat.not_lt, ← FiniteDouble.value_lt_iff h, not_lt]
    exact_mod_cast hge
  have hround := half_le_roundDiv .toEven (x.units * nanosPerSecond) unitsPerOne unitsPerOne_pos
  rw [ofSecondsDouble?_of_positive h, ofNanos?, dif_neg]
  generalize roundDiv .toEven (x.units * nanosPerSecond) unitsPerOne = n at *
  intro hlt
  have hless : n * unitsPerOne + unitsPerOne ≤ durationLimit * unitsPerOne := by
    rw [← Nat.succ_mul]
    exact Nat.mul_le_mul_right _ hlt
  have := unitsPerOne_pos
  unfold durationLimit UInt64.size nanosPerSecond at *
  omega

end Duration

end Provisioning
