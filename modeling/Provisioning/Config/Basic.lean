-- The configuration of a tracker: where to ask, how often, and how to read
-- the state out of a record.
import Provisioning.Config.Scheme
import Provisioning.Time.Duration

namespace Provisioning

/-- Where the state stands in the metadata of a record. -/
def launcherStateField : String := "APP_LAUNCHER_STATE"

/-- The metadata field that marks a record as the launcher's. -/
def launcherNameField : String := "APP_LAUNCHER_NAME"

/-- The interval between fetches when none is given. -/
def standardInterval : Duration := .ofSeconds 5

/-- The time limit of a request when none is given. -/
def standardTimeout : Duration := .ofSeconds 30

structure Config where
  baseUrl : String := "http://localhost:8080"
  pollIntervalSeconds : Double := .ofNat 5
  timeoutSeconds : Double := .ofNat 30
  userAgent : String := "applauncher/0.1.0"
  metadataKey : String := Scheme.standard.metadataKey
  stateField : String := launcherStateField
  terminalMarker : Option String := Scheme.standard.terminalMarker
  stages : StageTable := provisioningTable
deriving DecidableEq

namespace Config

/-- The configuration when nothing is set. -/
def standard : Config := {}

/-! ## Setting -/

/-- Takes over a scheme's table, metadata key and terminal marker together. -/
def withScheme (c : Config) (s : Scheme) : Config :=
  { c with
    metadataKey := s.metadataKey
    terminalMarker := s.terminalMarker
    stages := provisioningTable }

def ofScheme (s : Scheme) : Config := standard.withScheme s

def withPollInterval (c : Config) (d : Duration) : Config :=
  { c with pollIntervalSeconds := d.toSecondsDouble }

/-! ## Reading -/

/-- The time from the end of one fetch to the start of the next. -/
def pollInterval (c : Config) : Duration :=
  (Duration.ofSecondsDouble? c.pollIntervalSeconds).getD standardInterval

/-- The time limit of a request. -/
def timeout (c : Config) : Duration :=
  (Duration.ofSecondsDouble? c.timeoutSeconds).getD standardTimeout

/-- Does this state end provisioning? -/
def isTerminal (c : Config) (state : String) : Bool := c.terminalMarker == some state

/-- The level of a state: its ordinal, or one past the last stage for a terminal
marker outside the table, so that every stage counts as completed. -/
def stateLevel (c : Config) (state : String) : Option Nat :=
  match c.stages.levelOf state with
  | some level => some level
  | none => if c.isTerminal state then some (c.stages.last.ordinal + 1) else none

/-! ## Checking -/

/-- Is this a length of time to wait for: finite, above zero, and not rounded
to nothing? -/
def isUsableSeconds (seconds : Double) (length : Duration) : Bool :=
  seconds.isFinite && seconds.isPositive && !length.isZero

/-- The fault of a number of seconds. -/
def secondsFault? (field : String) (seconds : Double) (length : Duration) : Option ConfigError :=
  if isUsableSeconds seconds length then none
  else some (.invalid field ("must be positive, got " ++ seconds.text))

/-- The fault of a text that has to say something. -/
def emptyFault? (field text : String) : Option ConfigError :=
  if text.isEmpty then some (.invalid field "must not be empty") else none

/-- The fault of the terminal marker: it is empty, or a stage before the last. -/
def markerFault? (c : Config) : Option ConfigError :=
  match c.terminalMarker with
  | none => none
  | some marker =>
    if marker.isEmpty then some (.invalid "terminal_marker" "must not be empty")
    else if (c.stages.get? marker).isSome ∧ c.stages.last.name ≠ marker then
      some (.terminalNotLast marker)
    else none

/-- The first fault of a configuration. -/
def fault? (c : Config) : Option ConfigError :=
  emptyFault? "base_url" (trimmed c.baseUrl)
    |>.or (secondsFault? "poll_interval_seconds" c.pollIntervalSeconds c.pollInterval)
    |>.or (secondsFault? "timeout_seconds" c.timeoutSeconds c.timeout)
    |>.or (emptyFault? "metadata_key" c.metadataKey)
    |>.or (emptyFault? "state_field" c.stateField)
    |>.or c.markerFault?

/-- The configuration itself, if it has no fault. -/
def validate (c : Config) : Except ConfigError Config :=
  match c.fault? with
  | some e => .error e
  | none => .ok c

theorem validate_eq_ok_iff {c d : Config} : c.validate = .ok d ↔ c.fault? = none ∧ d = c := by
  unfold validate
  split
  · simp [*]
  · simp [*, eq_comm]

theorem fault?_of_validate {c : Config} (h : c.validate = .ok c) : c.fault? = none :=
  (validate_eq_ok_iff.mp h).1

theorem standard_validate : standard.validate = .ok standard :=
  validate_eq_ok_iff.mpr ⟨by decide +kernel, rfl⟩

/-- A valid configuration has an interval and a time limit to wait for. -/
theorem usable_of_valid {c : Config} (h : c.fault? = none) :
    isUsableSeconds c.pollIntervalSeconds c.pollInterval = true ∧
      isUsableSeconds c.timeoutSeconds c.timeout = true := by
  simp only [fault?, Option.or_eq_none_iff, secondsFault?, ite_eq_left_iff, reduceCtorEq, imp_false,
    Decidable.not_not] at h
  exact ⟨h.1.1.1.1.2, h.1.1.1.2⟩

end Config

end Provisioning
