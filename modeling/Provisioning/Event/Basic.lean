-- The events of a poll session and the data that they carry.
import Provisioning.Errors
import Provisioning.Number.Double

namespace Provisioning

open Json

inductive Event
  | started (sessionId appId : String)
  | fetched (appId : String) (state : Option String) (level : Option Nat) (durationMs : Double)
  | failed (appId kind error : String) (transient : Bool)
  | unknownStage (appId state : String)
  | terminal (appId route : String)
  | cancelled (appId reason : String)
deriving DecidableEq, Repr

namespace Event

/-- The event of a failed fetch. -/
def ofError (appId : String) (e : FetchError) : Event :=
  failed appId e.kind e.message e.isTransient

/-- The name of the event by itself. -/
def tag : Event → String
  | started _ _ => "started"
  | fetched _ _ _ _ => "fetched"
  | failed _ _ _ _ => "failed"
  | unknownStage _ _ => "unknown_stage"
  | terminal _ _ => "terminal"
  | cancelled _ _ => "cancelled"

/-- The name under which sinks know the event. -/
def type : Event → String
  | started _ _ => "poll.started"
  | fetched _ _ _ _ => "poll.fetched"
  | failed _ _ _ _ => "poll.failed"
  | unknownStage _ _ => "poll.unknown_stage"
  | terminal _ _ => "poll.terminal"
  | cancelled _ _ => "poll.cancelled"

/-- The fields of the event, in order. -/
def fields : Event → Members
  | started sessionId appId => [("session_id", .string sessionId), ("app_id", .string appId)]
  | fetched appId state level durationMs =>
    [("app_id", .string appId), ("state", .ofText? state), ("level", .ofOption .ofNat level),
      ("duration_ms", .ofDouble durationMs)]
  | failed appId kind error transient =>
    [("app_id", .string appId), ("kind", .string kind), ("error", .string error),
      ("transient", .bool transient)]
  | unknownStage appId state => [("app_id", .string appId), ("state", .string state)]
  | terminal appId route => [("app_id", .string appId), ("route", .string route)]
  | cancelled appId reason => [("app_id", .string appId), ("reason", .string reason)]

/-- The event by itself in JSON: its tag, then its fields. -/
def toJson (e : Event) : Value := .object (("event", .string e.tag) :: e.fields)

/-- The data that a sink gets: the fields and the time, by name. -/
def payload (e : Event) (timestamp : String) : Value :=
  .object (Members.insert "timestamp" (.string timestamp) (Members.ofList e.fields))

end Event

end Provisioning
