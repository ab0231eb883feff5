-- Settings of a command: configuration and log filter, from the options and
-- from what the command runs in.
import Provisioning.CommandLine.Arguments
import Provisioning.CommandLine.Failure
import Provisioning.Config.Environment
import Provisioning.Config.File

namespace Provisioning

/-- What a command finds around it. -/
structure Surroundings where
  valueOf : String → Option String
  contentOf : String → Option (List UInt8)

namespace CommonOptions

/-- The configuration that the layers start from. -/
def baseConfig (o : CommonOptions) (s : Surroundings) : Except CommandFailure Config :=
  match o.configPath with
  | none => .ok .standard
  | some path =>
    match Config.ofFile (s.contentOf path) with
    | .ok config => .ok config
    | .error e => .error ⟨"failed to load config from " ++ path, e.causes⟩

/-- Overrides a configuration by the options. -/
def overrides (o : CommonOptions) (c : Config) : Config :=
  let c := match o.scheme with
    | some scheme => c.withScheme scheme
    | none => c
  let c := { c with baseUrl := o.baseUrl.getD c.baseUrl }
  match o.pollInterval with
  | some d => c.withPollInterval d
  | none => c

/-- The configuration: from the file, then the environment, then the options. -/
def config (o : CommonOptions) (s : Surroundings) : Except CommandFailure Config := do
  let base ← o.baseConfig s
  let layered ← match base.withEnvironment (.ofLookup s.valueOf) with
    | .ok config => .ok config
    | .error e => .error ⟨"invalid configuration in environment", e.causes⟩
  match (o.overrides layered).validate with
  | .ok config => .ok config
  | .error e => .error ⟨"invalid configuration", e.causes⟩

def logSettings (o : CommonOptions) : LogSettings :=
  { level := o.logLevel, format := if o.jsonLogs then .json else .pretty }

/-- The variable that holds filter directives. -/
def logVariable : String := "RUST_LOG"

def logFilter (o : CommonOptions) (s : Surroundings) : Except CommandFailure LogFilter :=
  match LogFilter.ofSettings o.logSettings (s.valueOf logVariable) with
  | .ok filter => .ok filter
  | .error fault => .error ⟨"failed to initialize logging", fault.causes⟩

end CommonOptions

end Provisioning
