-- Where events go: a list that keeps them all, or the log.
import Provisioning.Event.Basic
import Provisioning.Log.Format

namespace Provisioning

open Json

/-- An event as a sink gets it. -/
structure SinkEvent where
  type : String
  data : Option Value := none

/-! ## Collecting -/

/-- A sink that keeps every event, in order. -/
structure CollectingSink where
  events : List SinkEvent := []

namespace CollectingSink

def emit (s : CollectingSink) (e : SinkEvent) : CollectingSink := ⟨s.events ++ [e]⟩

def clear (_ : CollectingSink) : CollectingSink := {}

def types (s : CollectingSink) : List String := s.events.map SinkEvent.type

/-- How many events have this type. -/
def count (s : CollectingSink) (type : String) : Nat := (s.types.filter (· == type)).length

/-- The data of the latest event of a type; none also when it has no data. -/
def latestOf (s : CollectingSink) (type : String) : Option Value :=
  (s.events.reverse.find? (·.type == type)).bind SinkEvent.data

def isEmpty (s : CollectingSink) : Bool := s.events.isEmpty

end CollectingSink

/-! ## Logging -/

/-- Does an event of this type report a failure? -/
def isWarningType (type : String) : Bool := type.endsWith ".failed" || type.endsWith ".unknown_stage"

/-- The log line of an event: failures are warnings, and all else has the level
of the sink, of which only two are told apart. -/
def eventLogLine (level : LogLevel) (type : String) : LogLine where
  level :=
    if isWarningType type then .warn
    else match level with
      | .debug | .trace => .debug
      | _ => .info
  message := "Event: " ++ type

/-! ## Sessions -/

/-- Where the events of a session go. -/
inductive SinkKind
  | discarding
  /-- Keeps events; each takes some time, unless nobody waits for it. -/
  | collecting (delayMs : Nat)
  | logging (level : LogLevel)
deriving DecidableEq, Repr

/-- How long the sink takes for an event. -/
def SinkKind.delayMs : SinkKind → Nat
  | collecting delayMs => delayMs
  | _ => 0

end Provisioning
