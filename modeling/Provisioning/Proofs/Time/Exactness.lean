-- A length of time below `2 ^ 23` seconds survives the way into a double of seconds and
-- back: both roundings on the way in move it by less than half a nanosecond, which the one
-- on the way back undoes.
import Provisioning.Proofs.Number.NearestDouble

namespace Provisioning

/-- The whole number that a quotient is less than a half away from is what it is rounded to. -/
theorem roundDiv_of_close {tie : Tie} {num den n : Nat} (hbelow : 2 * num < 2 * (n * den) + den)
    (habove : 2 * (n * den) < 2 * num + den) : roundDiv tie num den = n := by
  have hden : 0 < den := by omega
  have hupper := roundDiv_le_half tie num den hden
  have hlower := half_le_roundDiv tie num den hden
  rcases Nat.lt_trichotomy (roundDiv tie num den) n with hlt | heq | hgt
  · have := Nat.mul_le_mul_right den hlt
    rw [Nat.succ_mul] at this
    omega
  · exact heq
  · have := Nat.mul_le_mul_right den hgt
    rw [Nat.succ_mul] at this
    omega

namespace Duration

/-- The lengths that a double of seconds tells apart to the nanosecond. -/
def IsShort (d : Duration) : Prop := d.nanos < 2 ^ 23 * nanosPerSecond

/-- A double is less than half a nanosecond away from a length. -/
structure IsClose (x : FiniteDouble) (d : Duration) : Prop where
  not_negative : x.negative = false
  below : 2 * (x.units * nanosPerSecond) < 2 * (d.nanos * unitsPerOne) + unitsPerOne
  above : 2 * (d.nanos * unitsPerOne) < 2 * (x.units * nanosPerSecond) + unitsPerOne

/-! ## The errors of rounding

In `power` a second has `2 ^ 54` units. A step of the seconds past a whole one, as a double,
then has 2 at most, and a step of a sum below `2 ^ 23` seconds `2 ^ 24` at most. -/

/-- The rest stays below a second when it is rounded. -/
theorem rest_lt {rest exact power : Nat} (hpower : 0 < power)
    (hexact : exact + 2 ^ 54 * power ≤ 10 ^ 9 * (2 ^ 54 * power))
    (hrest : 2 * (rest * 10 ^ 9) ≤ 2 * exact + 10 ^ 9 * (2 * power)) : rest < 2 ^ 54 * power := by
  omega

/-- Both errors add up to less than half a nanosecond. -/
theorem errors_add_up {whole rest sum exact power : Nat} (hpower : 0 < power)
    (hrest_below : 2 * (rest * 10 ^ 9) ≤ 2 * exact + 10 ^ 9 * (2 * power))
    (hrest_above : 2 * exact ≤ 2 * (rest * 10 ^ 9) + 10 ^ 9 * (2 * power))
    (hsum_below : 2 * sum ≤ 2 * (whole + rest) + 2 ^ 24 * power)
    (hsum_above : 2 * (whole + rest) ≤ 2 * sum + 2 ^ 24 * power) :
    2 * (sum * 10 ^ 9) < 2 * (10 ^ 9 * whole + exact) + 2 ^ 54 * power ∧
      2 * (10 ^ 9 * whole + exact) < 2 * (sum * 10 ^ 9) + 2 ^ 54 * power := by
  omega

/-! ## The double of a length -/

theorem toSecondsDouble_of_parts {d : Duration} {whole rest : FiniteDouble}
    (hwhole : Double.ofNat d.seconds = .finite whole)
    (hrest : Double.ofQuotient false d.subsecNanos nanosPerSecond = .finite rest) :
    d.toSecondsDouble = whole.addMagnitudes rest := by
  -- The function is opened before it is applied: a match on a double that is still to be
  -- computed would set off the computation.
  conv => lhs; fun; delta toSecondsDouble
  generalize Double.ofNat d.seconds = first at hwhole ⊢
  generalize Double.ofQuotient false d.subsecNanos nanosPerSecond = second at hrest ⊢
  rw [hwhole, hrest]

/-- The whole seconds, the rest and their sum, each as the nearest double. -/
theorem exists_toSecondsDouble {d : Duration} (h : d.IsShort) :
    ∃ whole rest sum : FiniteDouble, IsNearestDouble whole d.seconds ∧
      IsNearestDouble rest ((d.subsecNanos : ℚ) / nanosPerSecond) ∧
      IsNearestDouble sum (whole.value + rest.value) ∧
      d.toSecondsDouble = .finite sum ∧ IsClose sum d := by
  obtain ⟨k, hk⟩ : ∃ k : Nat, k = 1020 := ⟨_, rfl⟩
  have hunits : unitsPerOne = 2 ^ 54 * 2 ^ k := by
    rw [← Nat.pow_add, ← unitsPerOne_eq]
    omega
  have hpower : 0 < 2 ^ k := Nat.two_pow_pos k
  have hseconds : d.seconds < 2 ^ 23 := Nat.div_lt_of_lt_mul (Nat.mul_comm _ _ ▸ h)
  have hsubsec : d.subsecNanos < nanosPerSecond := Nat.mod_lt _ (by decide)
  obtain ⟨whole, hwhole, hwhole_sign, hwhole_units, hwhole_nearest⟩ :=
    Double.exists_ofNat (Nat.lt_trans hseconds (by decide))
  have hrest_lt : d.subsecNanos * unitsPerOne < nanosPerSecond * 2 ^ (k + 1 + 53) := by
    rw [← unitsPerOne_eq (by omega)]
    exact Nat.mul_lt_mul_of_pos_right hsubsec unitsPerOne_pos
  obtain ⟨rest, hrest, hrest_sign, hrest_nearest, hrest_below, hrest_above⟩ :=
    Double.exists_ofQuotient_of_lt (by decide) (by omega) hrest_lt
  have hexact := Nat.mul_le_mul_right unitsPerOne hsubsec
  have hwhole_le := Nat.mul_le_mul_right unitsPerOne hseconds
  rw [Nat.succ_mul] at hexact hwhole_le
  rw [Nat.pow_succ, Nat.mul_comm _ 2] at hrest_below hrest_above
  have hrest_units : rest.units < unitsPerOne := by
    rw [hunits] at hexact hrest_below ⊢
    exact rest_lt hpower hexact hrest_below
  have hsum_lt : whole.units + rest.units < 2 ^ (24 + k + 53) := by
    have hlimit : 2 ^ (24 + k + 53) = 2 ^ 23 * unitsPerOne := by
      rw [hunits, ← Nat.pow_add, ← Nat.pow_add, (by omega : 24 + k + 53 = 23 + (54 + k))]
    rw [hlimit, hwhole_units]
    omega
  obtain ⟨sum, hsum, hsum_sign, hsum_nearest, hsum_below, hsum_above⟩ :=
    FiniteDouble.exists_addMagnitudes hwhole_sign hrest_sign (by omega) hsum_lt
  refine ⟨whole, rest, sum, hwhole_nearest, hrest_nearest, hsum_nearest, ?_, ?_⟩
  · rw [toSecondsDouble_of_parts hwhole hrest, hsum]
  · have hnanos : d.nanos * unitsPerOne = 10 ^ 9 * whole.units + d.subsecNanos * unitsPerOne := by
      rw [hwhole_units, ← Nat.mul_assoc, ← Nat.add_mul]
      exact congrArg (· * unitsPerOne) (Nat.div_add_mod d.nanos nanosPerSecond).symm
    rw [Nat.pow_add] at hsum_below hsum_above
    obtain ⟨hbelow, habove⟩ := errors_add_up hpower hrest_below hrest_above hsum_below hsum_above
    rw [← hunits, ← hnanos] at hbelow habove
    exact ⟨hsum_sign, hbelow, habove⟩

/-! ## Back again -/

/-- A double that is close to a length is read as that length. -/
theorem ofSecondsDouble?_of_close {x : FiniteDouble} {d : Duration} (h : IsClose x d) :
    ofSecondsDouble? (.finite x) = some d := by
  have hround : roundDiv .toEven (x.units * nanosPerSecond) unitsPerOne = d.nanos :=
    roundDiv_of_close h.below h.above
  have hsign : ¬ (x.negative ∧ x.mantissa ≠ 0) := by simp [h.not_negative]
  rw [ofSecondsDouble?, if_neg hsign, hround, ofNanos?, dif_pos d.fits]

theorem isNearest_of_close {x : FiniteDouble} {d : Duration} (h : IsClose x d) :
    IsNearest d.nanos (x.value * nanosPerSecond) := by
  have hnearest := isNearest_roundDiv (x.units * nanosPerSecond) unitsPerOne_pos
  rw [roundDiv_of_close h.below h.above, Nat.cast_mul, mul_div_right_comm] at hnearest
  rw [FiniteDouble.value_of_not_negative h.not_negative]
  exact hnearest

/-- A length that is not zero comes to a double above zero. -/
theorem isPositive_of_close {x : FiniteDouble} {d : Duration} (h : IsClose x d)
    (hne : d.nanos ≠ 0) : x.isPositive = true := by
  have hmantissa : x.mantissa ≠ 0 := by
    intro hzero
    have hunits : x.units = 0 := by rw [FiniteDouble.units_eq, hzero, Nat.zero_mul]
    have habove := h.above
    have hone := Nat.mul_le_mul_right unitsPerOne (Nat.pos_of_ne_zero hne)
    rw [hunits] at habove
    omega
  simp [FiniteDouble.isPositive, FiniteDouble.isZero, h.not_negative, hmantissa]

end Duration

end Provisioning
