-- Overrides of a configuration by environment variables.
import Provisioning.Config.Basic
import Provisioning.Time.Interval

namespace Provisioning

/-- The values of the variables that are set. -/
structure Environment where
  scheme : Option String := none
  apiUrl : Option String := none
  pollInterval : Option String := none

namespace Environment

def schemeVariable : String := "APPLAUNCHER_SCHEME"
def apiUrlVariable : String := "APPLAUNCHER_API_URL"
def pollIntervalVariable : String := "APPLAUNCHER_POLL_INTERVAL"

/-- Looks the variables up. -/
def ofLookup (lookup : String → Option String) : Environment where
  scheme := lookup schemeVariable
  apiUrl := lookup apiUrlVariable
  pollInterval := lookup pollIntervalVariable

end Environment

namespace Config

/-- Overrides by a scheme's name. -/
def withSchemeText (c : Config) : Option String → Except ConfigError Config
  | none => .ok c
  | some text => (Scheme.ofText text).map c.withScheme

/-- Overrides by the text of an interval. -/
def withIntervalText (c : Config) : Option String → Except ConfigError Config
  | none => .ok c
  | some text =>
    match Duration.ofInterval text with
    | .ok d => .ok (c.withPollInterval d)
    | .error fault => .error (.invalid "poll_interval" fault.message)

/-- Applies the variables that are set. The scheme comes first, and the outcome
is checked. -/
def withEnvironment (c : Config) (e : Environment) : Except ConfigError Config := do
  let c ← c.withSchemeText e.scheme
  let c := { c with baseUrl := e.apiUrl.getD c.baseUrl }
  let c ← c.withIntervalText e.pollInterval
  c.validate

end Config

end Provisioning
