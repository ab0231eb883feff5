-- The interval that is set and the one that is read back. Below `2 ^ 23` seconds they are
-- the same to the nanosecond, though a double of seconds stands between them.
import Provisioning.Config.Basic
import Provisioning.Proofs.Time.Exactness

namespace Provisioning.Config

/-! ## Any number of seconds -/

/-- A configuration with a number of seconds for its interval. -/
def withSeconds (c : Config) (seconds : Double) : Config :=
  { c with pollIntervalSeconds := seconds }

theorem withPollInterval_eq (c : Config) (d : Duration) :
    c.withPollInterval d = c.withSeconds d.toSecondsDouble := rfl

theorem pollInterval_withSeconds (c : Config) (seconds : Double) :
    (c.withSeconds seconds).pollInterval =
      (Duration.ofSecondsDouble? seconds).getD standardInterval := rfl

theorem timeout_withSeconds (c : Config) (seconds : Double) :
    (c.withSeconds seconds).timeout = c.timeout := rfl

theorem markerFault?_withSeconds (c : Config) (seconds : Double) :
    (c.withSeconds seconds).markerFault? = c.markerFault? := rfl

/-- With some number of seconds the configuration is valid. -/
def IsValidButForInterval (c : Config) : Prop :=
  ∃ seconds, (c.withSeconds seconds).validate = .ok (c.withSeconds seconds)

theorem isValidButForInterval_of_valid {c : Config} (h : c.validate = .ok c) :
    c.IsValidButForInterval :=
  ⟨c.pollIntervalSeconds, h⟩

/-- Then the interval alone decides. -/
theorem fault?_withSeconds {c : Config} (h : c.IsValidButForInterval) (seconds : Double) :
    (c.withSeconds seconds).fault? =
      secondsFault? "poll_interval_seconds" seconds (c.withSeconds seconds).pollInterval := by
  obtain ⟨valid, hvalid⟩ := h
  have hnone := fault?_of_validate hvalid
  simp only [fault?, Option.or_eq_none_iff, timeout_withSeconds, markerFault?_withSeconds] at hnone
  obtain ⟨⟨⟨⟨⟨hurl, -⟩, htimeout⟩, hkey⟩, hfield⟩, hmarker⟩ := hnone
  simp only [withSeconds] at hurl htimeout hkey hfield
  simp only [fault?, timeout_withSeconds, markerFault?_withSeconds, hmarker]
  simp only [withSeconds, hurl, htimeout, hkey, hfield, Option.none_or, Option.or_none]

theorem validate_withSeconds_iff {c : Config} (h : c.IsValidButForInterval) (seconds : Double) :
    (c.withSeconds seconds).validate = .ok (c.withSeconds seconds) ↔
      isUsableSeconds seconds (c.withSeconds seconds).pollInterval = true := by
  rw [validate_eq_ok_iff, fault?_withSeconds h, secondsFault?]
  simp

/-! ## The seconds of a length -/

/-- The double that is set is close to the length, and is read as that length. -/
theorem pollInterval_withPollInterval {d : Duration} (h : d.IsShort) (c : Config) :
    (c.withPollInterval d).pollInterval = d := by
  obtain ⟨_, _, sum, -, -, -, hsum, hclose⟩ := Duration.exists_toSecondsDouble h
  rw [withPollInterval_eq, hsum, pollInterval_withSeconds,
    Duration.ofSecondsDouble?_of_close hclose, Option.getD_some]

/-- A length can be waited for exactly if it is not zero. -/
theorem isUsableSeconds_iff {d : Duration} (h : d.IsShort) :
    isUsableSeconds d.toSecondsDouble d = true ↔ d.nanos ≠ 0 := by
  obtain ⟨_, _, sum, -, -, -, hsum, hclose⟩ := Duration.exists_toSecondsDouble h
  rw [hsum]
  constructor
  · intro husable hzero
    simp [isUsableSeconds, Duration.isZero, hzero] at husable
  · intro hne
    have hpositive := Duration.isPositive_of_close hclose hne
    simp [isUsableSeconds, Duration.isZero, hne, Double.isFinite, Double.isPositive, hpositive]

/-! ## The law -/

/-- An interval below `2 ^ 23` seconds is set as the double nearest to the sum of two
doubles, of which one is nearest to its whole seconds and one to the rest, and it is read
back from there to the nanosecond. So different intervals make different configurations,
and where nothing else is at fault a configuration is valid with any interval but zero. -/
theorem interval_is_read_back_as_it_was_set {d : Duration} (h : d.nanos < 2 ^ 23 * nanosPerSecond)
    (c : Config) :
    (∃ whole rest sum : FiniteDouble,
      IsNearestDouble whole d.seconds ∧
      IsNearestDouble rest ((d.subsecNanos : ℚ) / nanosPerSecond) ∧
      IsNearestDouble sum (whole.value + rest.value) ∧
      (c.withPollInterval d).pollIntervalSeconds = .finite sum ∧
      IsNearest d.nanos (sum.value * nanosPerSecond)) ∧
    (c.withPollInterval d).pollInterval = d ∧
    (∀ e : Duration, e.nanos < 2 ^ 23 * nanosPerSecond → d ≠ e →
      c.withPollInterval d ≠ c.withPollInterval e) ∧
    (c.IsValidButForInterval →
      ((c.withPollInterval d).validate = .ok (c.withPollInterval d) ↔ d.nanos ≠ 0)) := by
  have hback := pollInterval_withPollInterval h
  refine ⟨?_, hback c, ?_, ?_⟩
  · obtain ⟨whole, rest, sum, hwhole, hrest, hsum, heq, hclose⟩ := Duration.exists_toSecondsDouble h
    refine ⟨whole, rest, sum, hwhole, hrest, hsum, ?_, ?_⟩
    · rw [withPollInterval_eq, heq]
      rfl
    · exact Duration.isNearest_of_close hclose
  · intro e he hne heq
    apply hne
    rw [← hback c, heq, pollInterval_withPollInterval he]
  · intro hvalid
    rw [← isUsableSeconds_iff h, withPollInterval_eq, validate_withSeconds_iff hvalid,
      ← withPollInterval_eq, hback]

/-- The interval that is a nanosecond short of the limit, and one a nanosecond shorter. -/
theorem longest_interval_is_read_back :
    let d : Duration := ⟨2 ^ 23 * 10 ^ 9 - 1, by decide⟩
    let e : Duration := ⟨2 ^ 23 * 10 ^ 9 - 2, by decide⟩
    (standard.withPollInterval d).pollInterval = d ∧
      standard.withPollInterval d ≠ standard.withPollInterval e ∧
      standard.IsValidButForInterval ∧
      (standard.withPollInterval d).validate = .ok (standard.withPollInterval d) := by
  intro d e
  have hvalid := isValidButForInterval_of_valid standard_validate
  have hd : d.nanos < 2 ^ 23 * nanosPerSecond := by decide
  have he : e.nanos < 2 ^ 23 * nanosPerSecond := by decide
  obtain ⟨-, hback, hdiffer, haccepted⟩ := interval_is_read_back_as_it_was_set hd standard
  exact ⟨hback, hdiffer e he (by decide), hvalid, (haccepted hvalid).mpr (by decide)⟩

/-- A nanosecond past the limit is read back as two: the doubles lie too far apart there. -/
example :
    let d : Duration := ⟨2 ^ 23 * 10 ^ 9 + 1, by decide⟩
    (standard.withPollInterval d).pollInterval ≠ d := by
  decide +kernel

end Provisioning.Config
