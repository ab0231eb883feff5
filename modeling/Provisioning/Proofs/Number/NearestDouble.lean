-- The double that a quotient is rounded to is the nearest one, and the one with an even
-- mantissa of two that are equally near. All doubles near a value lie on one grid, so the
-- nearest of them is the nearest whole number of steps.
import Mathlib.Algebra.Order.Ring.Abs
import Provisioning.Proofs.Time.Seconds

namespace Provisioning

/-- No finite double is nearer to the value, and if another is as near, this one has an even
mantissa. -/
structure IsNearestDouble (x : FiniteDouble) (value : ℚ) : Prop where
  nearest : ∀ y : FiniteDouble, |value - x.value| ≤ |value - y.value|
  even : ∀ y : FiniteDouble, y.value ≠ x.value → |value - x.value| = |value - y.value| →
    x.mantissa % 2 = 0

theorem FiniteDouble.value_of_not_negative {x : FiniteDouble} (h : x.negative = false) :
    x.value = (x.units : ℚ) / unitsPerOne := by
  rw [value, h, if_neg Bool.false_ne_true, one_mul]

namespace Double

/-! ## The grid of a quotient -/

/-- The scale at which a quotient has 53 bits, or fewer at scale 0. -/
def quotientScale (num den : Nat) : Nat := (num * unitsPerOne / den).log2 - 52

/-- The whole number of steps of that scale that a quotient is rounded to. -/
def quotientSteps (num den : Nat) : Nat :=
  roundDiv .toEven (num * unitsPerOne) (den * 2 ^ quotientScale num den)

/-- The size of a step, as a value. -/
def stepValue (num den : Nat) : ℚ := 2 ^ quotientScale num den / unitsPerOne

theorem stepValue_pos (num den : Nat) : 0 < stepValue num den := by
  have : (0 : ℚ) < unitsPerOne := by exact_mod_cast unitsPerOne_pos
  exact div_pos (by positivity) this

/-- Every double lies on the grid of a quotient, or below all of the grid that has 53 bits
and so below the quotient. -/
theorem on_grid_or_below (num den : Nat) (y : FiniteDouble) :
    (∃ k : ℤ, y.value = k * stepValue num den) ∨
      y.value < 2 ^ 52 * stepValue num den ∧ quotientScale num den ≠ 0 := by
  obtain ⟨hmantissa, -, -⟩ := y.isNormal
  by_cases hscale : quotientScale num den ≤ y.scale
  · left
    obtain ⟨extra, hextra⟩ := Nat.exists_eq_add_of_le hscale
    refine ⟨(if y.negative then -1 else 1) * (y.mantissa * 2 ^ extra), ?_⟩
    rw [FiniteDouble.value, FiniteDouble.units_eq, hextra, stepValue]
    push_cast
    ring
  · right
    refine ⟨?_, by omega⟩
    have hunits : y.units < 2 ^ 52 * 2 ^ quotientScale num den := by
      calc y.units = y.mantissa * 2 ^ y.scale := y.units_eq
        _ < 2 ^ 53 * 2 ^ y.scale := Nat.mul_lt_mul_of_pos_right hmantissa (Nat.two_pow_pos _)
        _ = 2 ^ 52 * 2 ^ (y.scale + 1) := by ring
        _ ≤ 2 ^ 52 * 2 ^ quotientScale num den := by
          apply Nat.mul_le_mul_left
          exact Nat.pow_le_pow_right (by decide) (by omega)
    have hvalue : y.value ≤ (y.units : ℚ) / unitsPerOne := by
      have hnonneg : (0 : ℚ) ≤ (y.units : ℚ) / unitsPerOne :=
        div_nonneg (Nat.cast_nonneg _) (Nat.cast_nonneg _)
      unfold FiniteDouble.value
      split <;> linarith
    refine lt_of_le_of_lt hvalue ?_
    have hpos : (0 : ℚ) < unitsPerOne := by exact_mod_cast unitsPerOne_pos
    rw [stepValue, ← mul_div_assoc]
    apply div_lt_div_of_pos_right _ hpos
    exact_mod_cast hunits

section
variable (num : Nat) {den : Nat} (hden : 0 < den)
include hden

theorem quotient_lt : num * unitsPerOne < 2 ^ 53 * (den * 2 ^ quotientScale num den) := by
  have hlog : num * unitsPerOne / den < 2 ^ (quotientScale num den + 53) := by
    apply Nat.lt_of_lt_of_le Nat.lt_log2_self
    apply Nat.pow_le_pow_right (by decide)
    unfold quotientScale
    omega
  rw [Nat.div_lt_iff_lt_mul hden, Nat.pow_add] at hlog
  calc num * unitsPerOne < 2 ^ quotientScale num den * 2 ^ 53 * den := hlog
    _ = 2 ^ 53 * (den * 2 ^ quotientScale num den) := by ring

/-- Above scale 0 the quotient has all its 53 bits. -/
theorem le_quotient (hscale : quotientScale num den ≠ 0) :
    2 ^ 52 * (den * 2 ^ quotientScale num den) ≤ num * unitsPerOne := by
  have hne : num * unitsPerOne / den ≠ 0 := by
    intro hzero
    apply hscale
    rw [quotientScale, hzero, Nat.log2_zero]
  have hlog : 2 ^ (quotientScale num den + 52) ≤ num * unitsPerOne / den := by
    apply Nat.le_trans _ (Nat.log2_self_le hne)
    apply Nat.pow_le_pow_right (by decide)
    unfold quotientScale at *
    omega
  rw [Nat.le_div_iff_mul_le hden, Nat.pow_add] at hlog
  calc 2 ^ 52 * (den * 2 ^ quotientScale num den)
      = 2 ^ quotientScale num den * 2 ^ 52 * den := by ring
    _ ≤ num * unitsPerOne := hlog

theorem step_pos : 0 < den * 2 ^ quotientScale num den := by positivity

theorem quotientSteps_le : quotientSteps num den ≤ 2 ^ 53 := by
  have hlt := (Nat.div_lt_iff_lt_mul (step_pos num hden)).mpr (quotient_lt num hden)
  unfold quotientSteps
  rcases roundDiv_eq_or .toEven (num * unitsPerOne) (den * 2 ^ quotientScale num den) with h | h
  · omega
  · omega

theorem le_quotientSteps (hscale : quotientScale num den ≠ 0) : 2 ^ 52 ≤ quotientSteps num den := by
  have hle := (Nat.le_div_iff_mul_le (step_pos num hden)).mpr (le_quotient num hden hscale)
  unfold quotientSteps
  rcases roundDiv_eq_or .toEven (num * unitsPerOne) (den * 2 ^ quotientScale num den) with h | h
  · omega
  · omega

omit hden in
theorem ofParts_of_normal {mantissa scale : Nat} (h : mantissa < 2 ^ 53 ∧ scale ≤ 2045 ∧
    (scale = 0 ∨ 2 ^ 52 ≤ mantissa)) (negative : Bool) :
    ofParts negative mantissa scale = .finite ⟨negative, mantissa, scale, h⟩ := dif_pos h

/-- A quotient in reach is rounded to a number of steps. If that has 54 bits, it is the
first power of two past the mantissas, and half as many steps of twice the size. -/
theorem exists_ofQuotient (hscale : quotientScale num den < 2045) :
    ∃ x, ofQuotient false num den = .finite x ∧ x.negative = false ∧
      x.units = quotientSteps num den * 2 ^ quotientScale num den ∧
      (quotientSteps num den % 2 = 0 → x.mantissa % 2 = 0) := by
  have hle := quotientSteps_le num hden
  have hdef : ofQuotient false num den =
      if quotientSteps num den < 2 ^ 53 then
        ofParts false (quotientSteps num den) (quotientScale num den)
      else ofParts false (2 ^ 52) (quotientScale num den + 1) := by
    unfold quotientSteps
    rw [← Nat.shiftLeft_eq]
    rfl
  by_cases hlt : quotientSteps num den < 2 ^ 53
  · have hparts : quotientSteps num den < 2 ^ 53 ∧ quotientScale num den ≤ 2045 ∧
        (quotientScale num den = 0 ∨ 2 ^ 52 ≤ quotientSteps num den) := by
      refine ⟨hlt, by omega, ?_⟩
      by_cases hzero : quotientScale num den = 0
      · exact .inl hzero
      · exact .inr (le_quotientSteps num hden hzero)
    rw [hdef, if_pos hlt, ofParts_of_normal hparts]
    exact ⟨_, rfl, rfl, FiniteDouble.units_eq _, id⟩
  · have hsteps : quotientSteps num den = 2 ^ 53 := by omega
    have hparts : 2 ^ 52 < 2 ^ 53 ∧ quotientScale num den + 1 ≤ 2045 ∧
        (quotientScale num den + 1 = 0 ∨ 2 ^ 52 ≤ 2 ^ 52) := by omega
    rw [hdef, if_neg hlt, ofParts_of_normal hparts]
    refine ⟨_, rfl, rfl, ?_, ?_⟩
    · rw [FiniteDouble.units_eq, hsteps]
      ring
    · intro _
      change 2 ^ 52 % 2 = 0
      decide

/-! ## The nearest double -/

/-- The quotient, counted in steps. -/
def stepCount (num den : Nat) : ℚ :=
  (num * unitsPerOne : ℕ) / (den * 2 ^ quotientScale num den : ℕ)

theorem quotient_eq_steps : (num : ℚ) / den = stepCount num den * stepValue num den := by
  have : (den : ℚ) ≠ 0 := by exact_mod_cast hden.ne'
  have : (unitsPerOne : ℚ) ≠ 0 := by exact_mod_cast unitsPerOne_pos.ne'
  unfold stepCount stepValue
  push_cast
  field_simp

theorem le_stepCount (hscale : quotientScale num den ≠ 0) : 2 ^ 52 ≤ stepCount num den := by
  have hpos : (0 : ℚ) < (den * 2 ^ quotientScale num den : ℕ) := by
    exact_mod_cast step_pos num hden
  unfold stepCount
  rw [le_div_iff₀ hpos]
  exact_mod_cast le_quotient num hden hscale

/-- Distances on the grid are distances in steps. -/
theorem abs_quotient_sub (k : ℚ) :
    |(num : ℚ) / den - k * stepValue num den| = |stepCount num den - k| * stepValue num den := by
  rw [quotient_eq_steps num hden, ← sub_mul, abs_mul, abs_of_pos (stepValue_pos num den)]

/-- A double below the grid is farther than the nearest number of steps. -/
theorem lt_of_below {steps : Nat} (hsteps : IsNearest steps (stepCount num den)) {below : ℚ}
    (hbelow : below < 2 ^ 52 * stepValue num den) (hscale : quotientScale num den ≠ 0) :
    |(num : ℚ) / den - steps * stepValue num den| < |(num : ℚ) / den - below| := by
  have hpos : 0 < stepValue num den := stepValue_pos num den
  have hcount := le_stepCount num hden hscale
  have hquotient := quotient_eq_steps num hden
  have hgrid : 2 ^ 52 * stepValue num den ≤ (num : ℚ) / den := by
    rw [hquotient]
    exact mul_le_mul_of_nonneg_right hcount hpos.le
  calc |(num : ℚ) / den - steps * stepValue num den|
      = |stepCount num den - steps| * stepValue num den := abs_quotient_sub num hden steps
    _ ≤ |stepCount num den - (2 ^ 52 : ℤ)| * stepValue num den :=
        mul_le_mul_of_nonneg_right (hsteps.nearest _) hpos.le
    _ = |(num : ℚ) / den - 2 ^ 52 * stepValue num den| := by
        rw [abs_quotient_sub num hden]
        push_cast
        rfl
    _ = (num : ℚ) / den - 2 ^ 52 * stepValue num den := abs_of_nonneg (by linarith)
    _ < (num : ℚ) / den - below := by linarith
    _ ≤ |(num : ℚ) / den - below| := le_abs_self _

/-- A quotient that is not past the doubles is rounded to the nearest of them. -/
theorem isNearestDouble_of_steps {x : FiniteDouble} (hsign : x.negative = false)
    (hunits : x.units = quotientSteps num den * 2 ^ quotientScale num den)
    (heven : quotientSteps num den % 2 = 0 → x.mantissa % 2 = 0) :
    IsNearestDouble x ((num : ℚ) / den) := by
  have hsteps : IsNearest (quotientSteps num den) (stepCount num den) :=
    isNearest_roundDiv (num * unitsPerOne) (step_pos num hden)
  have hpos : 0 < stepValue num den := stepValue_pos num den
  have hvalue : x.value = quotientSteps num den * stepValue num den := by
    rw [FiniteDouble.value_of_not_negative hsign, hunits, stepValue]
    push_cast
    ring
  constructor
  · intro y
    rw [hvalue]
    rcases on_grid_or_below num den y with ⟨k, hk⟩ | ⟨hbelow, hscale⟩
    · rw [hk, abs_quotient_sub num hden, abs_quotient_sub num hden]
      exact mul_le_mul_of_nonneg_right (hsteps.nearest k) hpos.le
    · exact (lt_of_below num hden hsteps hbelow hscale).le
  · intro y hne heq
    rw [hvalue] at hne heq
    rcases on_grid_or_below num den y with ⟨k, hk⟩ | ⟨hbelow, hscale⟩
    · rw [hk, abs_quotient_sub num hden, abs_quotient_sub num hden] at heq
      apply heven
      refine hsteps.even k ?_ (mul_right_cancel₀ hpos.ne' heq)
      rintro rfl
      exact hne (by rw [hk, Int.cast_natCast])
    · exact absurd heq (lt_of_below num hden hsteps hbelow hscale).ne

end

/-! ## Quotients in reach -/

theorem quotientScale_le {num den k : Nat} (hlt : num * unitsPerOne < den * 2 ^ (k + 53)) :
    quotientScale num den ≤ k := by
  have hdiv : num * unitsPerOne / den < 2 ^ (k + 53) := Nat.div_lt_of_lt_mul hlt
  unfold quotientScale
  by_cases hzero : num * unitsPerOne / den = 0
  · rw [hzero, Nat.log2_zero]
    omega
  · have := (Nat.log2_lt hzero).mpr hdiv
    omega

/-- A quotient below `2 ^ 53` steps of size `2 ^ k` is rounded to the nearest double, which
is at most half such a step away. -/
theorem exists_ofQuotient_of_lt {num den k : Nat} (hden : 0 < den) (hk : k < 2045)
    (hlt : num * unitsPerOne < den * 2 ^ (k + 53)) :
    ∃ x, ofQuotient false num den = .finite x ∧ x.negative = false ∧
      IsNearestDouble x ((num : ℚ) / den) ∧
      2 * (x.units * den) ≤ 2 * (num * unitsPerOne) + den * 2 ^ k ∧
      2 * (num * unitsPerOne) ≤ 2 * (x.units * den) + den * 2 ^ k := by
  have hscale := quotientScale_le hlt
  obtain ⟨x, hx, hsign, hunits, heven⟩ := exists_ofQuotient num hden (by omega)
  have hpow : den * 2 ^ quotientScale num den ≤ den * 2 ^ k :=
    Nat.mul_le_mul_left _ (Nat.pow_le_pow_right (by decide) hscale)
  have habove := roundDiv_le_half .toEven (num * unitsPerOne) _ (step_pos num hden)
  have hbelow := half_le_roundDiv .toEven (num * unitsPerOne) _ (step_pos num hden)
  have hsame : x.units * den = quotientSteps num den * (den * 2 ^ quotientScale num den) := by
    rw [hunits]
    ring
  rw [← quotientSteps, ← hsame] at habove hbelow
  exact ⟨x, hx, hsign, isNearestDouble_of_steps num hden hsign hunits heven,
    by omega, by omega⟩

/-- A natural number of 53 bits is a double. -/
theorem exists_ofNat {n : Nat} (h : n < 2 ^ 53) :
    ∃ x, ofNat n = .finite x ∧ x.negative = false ∧ x.units = n * unitsPerOne ∧
      IsNearestDouble x n := by
  obtain ⟨k, hk⟩ : ∃ k : Nat, k = 1074 := ⟨_, rfl⟩
  have hlt : n * unitsPerOne < 1 * 2 ^ (k + 53) := by
    rw [unitsPerOne_eq hk, Nat.one_mul, Nat.pow_add, Nat.mul_comm]
    exact Nat.mul_lt_mul_of_pos_left h (Nat.two_pow_pos _)
  have hscale := quotientScale_le hlt
  obtain ⟨x, hx, hsign, hunits, heven⟩ := exists_ofQuotient n Nat.one_pos (by omega)
  have hnearest := isNearestDouble_of_steps n Nat.one_pos hsign hunits heven
  rw [Nat.cast_one, div_one] at hnearest
  refine ⟨x, hx, hsign, ?_, hnearest⟩
  obtain ⟨rest, hrest⟩ := Nat.exists_eq_add_of_le' hscale
  have hpower : unitsPerOne = 2 ^ rest * 2 ^ quotientScale n 1 := by
    rw [← Nat.pow_add, ← hrest, unitsPerOne_eq hk]
  have hwhole : n * unitsPerOne = n * 2 ^ rest * (1 * 2 ^ quotientScale n 1) := by
    rw [hpower]
    ring
  rw [hunits, quotientSteps, hwhole, roundDiv_mul _ _ _ (step_pos n Nat.one_pos)]
  ring

end Double

/-- A sum below `2 ^ 53` steps of size `2 ^ k` is rounded to the nearest double, which is at
most half such a step away. -/
theorem FiniteDouble.exists_addMagnitudes {x y : FiniteDouble} {k : Nat}
    (hx : x.negative = false) (hy : y.negative = false) (hk : k < 2045)
    (hlt : x.units + y.units < 2 ^ (k + 53)) :
    ∃ z, x.addMagnitudes y = .finite z ∧ z.negative = false ∧
      IsNearestDouble z (x.value + y.value) ∧
      2 * z.units ≤ 2 * (x.units + y.units) + 2 ^ k ∧
      2 * (x.units + y.units) ≤ 2 * z.units + 2 ^ k := by
  have hscaled : (x.units + y.units) * unitsPerOne < unitsPerOne * 2 ^ (k + 53) := by
    rw [Nat.mul_comm]
    exact Nat.mul_lt_mul_of_pos_left hlt unitsPerOne_pos
  obtain ⟨z, hz, hsign, hnearest, hbelow, habove⟩ :=
    Double.exists_ofQuotient_of_lt unitsPerOne_pos hk hscaled
  refine ⟨z, hz, hsign, ?_, ?_, ?_⟩
  · rw [value_of_not_negative hx, value_of_not_negative hy, ← add_div]
    exact_mod_cast hnearest
  · apply Nat.le_of_mul_le_mul_right _ unitsPerOne_pos
    linarith
  · apply Nat.le_of_mul_le_mul_right _ unitsPerOne_pos
    linarith

end Provisioning
