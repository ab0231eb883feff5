-- The interval and the time limit of a valid configuration. Both are the nearest number of
-- nanoseconds to the seconds that are configured, below `2 ^ 64` seconds. From there on
-- the standard lengths stand in for them, unsaid.
import Provisioning.Config.Basic
import Provisioning.Proofs.Time.Seconds

namespace Provisioning

/-- A length of time is what a number of seconds comes to: some nanoseconds, and the
nearest number of them. From `2 ^ 64` seconds on, the standard length stands in. -/
def Duration.ComesFrom (length standard : Duration) (seconds : Double) : Prop :=
  ∃ x : FiniteDouble, seconds = .finite x ∧ 0 < length.nanos ∧
    (x.value < 2 ^ 64 → IsNearest length.nanos (x.value * nanosPerSecond)) ∧
    (2 ^ 64 ≤ x.value → length = standard)

namespace Config

/-- Seconds that are usable come to a length of time. -/
theorem comesFrom_of_usable {seconds : Double} {standard : Duration}
    (h : isUsableSeconds seconds ((Duration.ofSecondsDouble? seconds).getD standard) = true) :
    ((Duration.ofSecondsDouble? seconds).getD standard).ComesFrom standard seconds := by
  simp only [isUsableSeconds, Bool.and_eq_true, Bool.not_eq_true'] at h
  obtain ⟨⟨hfinite, hpositive⟩, hlength⟩ := h
  cases seconds with
  | infinite negative => cases hfinite
  | nan => cases hfinite
  | finite x =>
    refine ⟨x, rfl, ?_, ?_, ?_⟩
    · rw [Duration.isZero, beq_eq_false_iff_ne] at hlength
      exact Nat.pos_of_ne_zero hlength
    · intro hlt
      obtain ⟨d, hd, hnearest⟩ := Duration.ofSecondsDouble?_of_lt hpositive hlt
      rw [hd]
      exact hnearest
    · intro hge
      rw [Duration.ofSecondsDouble?_of_ge hpositive hge, Option.getD_none]

/-! ## The law -/

/-- The interval and the time limit of a valid configuration are never zero. Each is the
nearest number of nanoseconds to its seconds, with a half going to the even one, as long
as these are below `2 ^ 64`. From there on, and only then, the standard 5 and 30 seconds
take their place. -/
theorem interval_and_timeout_are_rounded_unless_out_of_reach {c : Config}
    (h : c.validate = .ok c) :
    c.pollInterval.ComesFrom standardInterval c.pollIntervalSeconds ∧
      c.timeout.ComesFrom standardTimeout c.timeoutSeconds := by
  obtain ⟨hinterval, htimeout⟩ := usable_of_valid (fault?_of_validate h)
  exact ⟨comesFrom_of_usable hinterval, comesFrom_of_usable htimeout⟩

/-- A configuration that differs from the standard one in its interval and time limit. -/
def ofSeconds (interval timeout : Double) : Config :=
  { standard with pollIntervalSeconds := interval, timeoutSeconds := timeout }

/-- A third of a second, and a time limit halfway between two nanoseconds. -/
theorem interval_of_a_third_and_timeout_of_a_half :
    let c := ofSeconds (.ofQuotient false 1 3) (.ofQuotient false 1 (2 ^ 10))
    c.validate = .ok c ∧
      c.pollInterval.ComesFrom standardInterval c.pollIntervalSeconds ∧
      c.pollInterval.nanos = 333333333 ∧
      c.timeout.ComesFrom standardTimeout c.timeoutSeconds ∧ c.timeout.nanos = 976562 := by
  intro c
  have hvalid : c.validate = .ok c := validate_eq_ok_iff.mpr ⟨by decide +kernel, rfl⟩
  obtain ⟨hinterval, htimeout⟩ := interval_and_timeout_are_rounded_unless_out_of_reach hvalid
  exact ⟨hvalid, hinterval, by decide +kernel, htimeout, by decide +kernel⟩

/-- Seconds past the longest length of time: `10 ^ 20`. -/
def farSeconds : FiniteDouble where
  negative := false
  mantissa := 6103515625000000
  scale := 1088
  normal := by decide

theorem farSeconds_value : farSeconds.value = 10 ^ 20 := by
  have hunits : farSeconds.units = 10 ^ 20 * unitsPerOne := by decide +kernel
  have hpos : (unitsPerOne : ℚ) ≠ 0 := by exact_mod_cast unitsPerOne_pos.ne'
  rw [FiniteDouble.value_of_positive rfl, hunits, div_eq_iff hpos]
  push_cast
  rfl

/-- An interval of `10 ^ 20` seconds is valid, and 5 seconds stand in for it. -/
theorem five_seconds_stand_in_for_a_valid_interval :
    let c := ofSeconds (.finite farSeconds) (.ofNat 30)
    c.validate = .ok c ∧ c.pollInterval = standardInterval ∧
      ¬ IsNearest c.pollInterval.nanos (farSeconds.value * nanosPerSecond) := by
  intro c
  have hinterval : c.pollInterval = standardInterval := by decide +kernel
  refine ⟨validate_eq_ok_iff.mpr ⟨by decide +kernel, rfl⟩, hinterval, ?_⟩
  rw [hinterval, farSeconds_value]
  intro h
  have hnearer := h.nearest (10 ^ 29)
  have hnanos : standardInterval.nanos = 5000000000 := by decide
  rw [hnanos] at hnearer
  norm_num [nanosPerSecond] at hnearer

end Config

end Provisioning
