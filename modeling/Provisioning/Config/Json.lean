-- Configurations in JSON: every field has a default, and the stage table is
-- checked while it is read.
import Provisioning.Config.Basic
import Provisioning.Stage.Json

namespace Provisioning

open Json

namespace Config

/-! ## Writing -/

def toJson (c : Config) : Value :=
  .object [
    ("base_url", .string c.baseUrl),
    ("poll_interval_seconds", .ofDouble c.pollIntervalSeconds),
    ("timeout_seconds", .ofDouble c.timeoutSeconds),
    ("user_agent", .string c.userAgent),
    ("metadata_key", .string c.metadataKey),
    ("state_field", .string c.stateField),
    ("terminal_marker", .ofText? c.terminalMarker),
    ("stages", c.stages.toJson)]

/-! ## Reading -/

/-- The fields that a text gives. -/
structure Given where
  baseUrl : Option String := none
  pollIntervalSeconds : Option Double := none
  timeoutSeconds : Option Double := none
  userAgent : Option String := none
  metadataKey : Option String := none
  stateField : Option String := none
  terminalMarker : Option (Option String) := none
  stages : Option StageTable := none

namespace Given

/-- The configuration with defaults for what is not given. -/
def complete (g : Given) : Config where
  baseUrl := g.baseUrl.getD standard.baseUrl
  pollIntervalSeconds := g.pollIntervalSeconds.getD standard.pollIntervalSeconds
  timeoutSeconds := g.timeoutSeconds.getD standard.timeoutSeconds
  userAgent := g.userAgent.getD standard.userAgent
  metadataKey := g.metadataKey.getD standard.metadataKey
  stateField := g.stateField.getD standard.stateField
  terminalMarker := g.terminalMarker.getD standard.terminalMarker
  stages := g.stages.getD standard.stages

/-- Takes up one field by name. -/
def read (depth : Nat) : MemberReader Given
  | "base_url", g, node =>
    some ((readField "base_url" g.baseUrl decodeString node).map ({ g with baseUrl := · }))
  | "poll_interval_seconds", g, node =>
    some ((readField "poll_interval_seconds" g.pollIntervalSeconds decodeDouble node).map
      ({ g with pollIntervalSeconds := · }))
  | "timeout_seconds", g, node =>
    some ((readField "timeout_seconds" g.timeoutSeconds decodeDouble node).map
      ({ g with timeoutSeconds := · }))
  | "user_agent", g, node =>
    some ((readField "user_agent" g.userAgent decodeString node).map ({ g with userAgent := · }))
  | "metadata_key", g, node =>
    some ((readField "metadata_key" g.metadataKey decodeString node).map
      ({ g with metadataKey := · }))
  | "state_field", g, node =>
    some ((readField "state_field" g.stateField decodeString node).map ({ g with stateField := · }))
  | "terminal_marker", g, node =>
    some ((readField "terminal_marker" g.terminalMarker (decodeOption decodeString) node).map
      ({ g with terminalMarker := · }))
  | "stages", g, node =>
    some ((readField "stages" g.stages (StageTable.ofNode depth) node).map ({ g with stages := · }))
  | _, _, _ => none

/-- The names of the fields, in the order in which a list gives them. -/
def names : List String :=
  ["base_url", "poll_interval_seconds", "timeout_seconds", "user_agent", "metadata_key",
    "state_field", "terminal_marker", "stages"]

/-- Takes up the items of a list as the fields of these names. -/
def readList (depth : Nat) (close : ListEnd) : Given → List String → List Node → Decoded Given
  | g, [], items => (endItems items close).map fun _ => g
  | g, _ :: _, [] => match close.readFault? with
    | some fault => .error (.malformed fault)
    | none => .ok g
  | g, name :: names, node :: items =>
    match read depth name g node with
    | some (.ok next) => readList depth close next names items
    | some (.error fault) => .error fault
    | none => readList depth close g names items

end Given

/-- A configuration, written as an object or as a list of its first fields. -/
def ofNode (depth : Nat) : Node → Decoded Config
  | .object members close =>
    if depth ≤ 1 then .error (.malformed .recursionLimit)
    else (readMembers (Given.read (depth - 1)) close {} members).map Given.complete
  | .list items close =>
    if depth ≤ 1 then .error (.malformed .recursionLimit)
    else (Given.readList (depth - 1) close {} Given.names items).map Given.complete
  | node => mismatch "struct TrackerConfig" node

/-- The configuration of a document, not yet checked. -/
def ofDocument (d : Document) : Decoded Config := d.decode .malformed (ofNode depthLimit)

/-- Reads and checks a configuration. -/
def ofText (text : String) : Except ConfigError Config :=
  match ofDocument (.ofString text) with
  | .error fault => .error (.parse fault.message)
  | .ok config => config.validate

end Config

end Provisioning
