-- Everything that can go wrong: with a configuration, with a fetch, and around a session.
import Provisioning.Json.Value
import Provisioning.Stage.Table

namespace Provisioning

open Json

/-! ## Configurations -/

/-- Why a configuration is refused. -/
inductive ConfigError
  | table (fault : TableFault)
  /-- The terminal marker is a stage that others follow. -/
  | terminalNotLast (marker : String)
  | invalid (field reason : String)
  | unknownScheme (text : String)
  /-- The text is no JSON of a configuration. -/
  | parse (reason : String)
deriving DecidableEq, Repr

def ConfigError.message : ConfigError → String
  | .table fault => fault.message
  | .terminalNotLast marker =>
    "Terminal marker '" ++ marker ++ "' must be absent from the stage table or be its last stage"
  | .invalid field reason => "Invalid " ++ field ++ ": " ++ reason
  | .unknownScheme text =>
    "Unknown stage scheme '" ++ text ++ "' (expected environment_json or environment_vars)"
  | .parse reason => "Failed to parse configuration: " ++ reason

/-! ## Fetches -/

/-- Why a fetch brought no record. -/
inductive FetchError
  /-- No response came. -/
  | transport (url reason : String)
  /-- The service answered with something other than success. -/
  | status (url : String) (code : Nat) (body : String)
  /-- The answer is no record. -/
  | decode (url reason : String)
deriving DecidableEq, Repr

namespace FetchError

def message : FetchError → String
  | transport url reason => "Request to " ++ url ++ " failed: " ++ reason
  | status url code body => url ++ " returned HTTP " ++ toString code ++ ": " ++ body
  | decode url reason => "Malformed application record from " ++ url ++ ": " ++ reason

def kind : FetchError → String
  | transport _ _ => "transport"
  | status _ _ _ => "status"
  | decode _ _ => "decode"

/-- Could a later attempt succeed? A request that the service blames will fail
again, unless it came too early, too slowly or too often. -/
def isTransient : FetchError → Bool
  | status _ code _ => !(400 ≤ code && code < 500) || code == 404 || code == 408 || code == 429
  | _ => true

/-- The error as data of an event. -/
def toData (e : FetchError) : Value :=
  .object ([("kind", .string e.kind), ("message", .string e.message)] ++
    (match e with
      | status _ code _ => [("status", .ofNat code)]
      | _ => []) ++
    [("transient", .bool e.isTransient)])

end FetchError

/-! ## Sessions -/

inductive SessionError
  | fetch (e : FetchError)
  | config (e : ConfigError)
  | cancelled (reason : String)
  | serialization (reason : String)
  | io (reason : String)
  | internal (reason : String)
deriving DecidableEq, Repr

def SessionError.message : SessionError → String
  | .fetch e => e.message
  | .config e => e.message
  | .cancelled reason => "Session cancelled: " ++ reason
  | .serialization reason => "Serialization error: " ++ reason
  | .io reason => "IO error: " ++ reason
  | .internal reason => "Internal error: " ++ reason

end Provisioning
