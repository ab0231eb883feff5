-- Polling sessions: their parts, and how they are started and stopped.
import Provisioning.Cancellation
import Provisioning.Errors
import Provisioning.Log.Record
import Provisioning.Progress
import Provisioning.Session.Plan
import Provisioning.Session.State

namespace Provisioning

/-- A session with its poll loop. Time is counted in milliseconds from the start. -/
structure Session where
  plan : SessionPlan
  source : Playback
  latch : NavigationLatch
  state : SessionState := .idle
  token : CancellationToken := {}
  latest : Snapshot := {}
  /-- The events that a collecting sink has kept. -/
  events : Array Event := #[]
  logs : Array LogRecord := #[]
  phase : LoopPhase := .ready
  /-- When the loop came to its present phase. -/
  since : Nat := 0
  now : Nat := 0
  /-- Can the session still end its loop by force, and learn how it ends? -/
  holdsLoop : Bool := true
  isDropped : Bool := false

namespace Session

/-! ## Parts -/

def appId (s : Session) : String := s.plan.appId

def config (s : Session) : Config := s.plan.config

/-- The place of the user while the session runs. -/
def route (s : Session) : Route := .provision s.appId

def hasNavigated (s : Session) : Bool := s.latch.hasFired

/-- What the session makes known to readers; the loop's end closes it. -/
def progress (s : Session) : ProgressChannel := ⟨s.latest, !s.phase.isEnded⟩

/-- The rows of the progress listing. -/
def rows (s : Session) : List StageRow := s.config.stages.progress s.latest.level

def debugText (s : Session) : String :=
  "PollingSession \x7b id: " ++ s.plan.id ++ ", app_id: " ++ quoted s.appId ++ ", state: " ++
    s.state.debugName ++ ", navigated: " ++ toString s.hasNavigated ++ " \x7d"

/-! ## Output -/

/-- Logs a line. -/
def say (s : Session) (origin : LogOrigin) (line : LogLine) : Session :=
  { s with logs := s.logs.push ⟨origin, line⟩ }

/-- Hands an event to the sink. -/
def deliver (s : Session) (e : Event) : Session :=
  match s.plan.sink with
  | .discarding => s
  | .collecting _ => { s with events := s.events.push e }
  | .logging level => s.say .sink (eventLogLine level e.type)

/-! ## Starting and stopping -/

/-- Starts a session, unless its configuration has a fault. -/
def start (id appId : String) (config : Config) (source : Playback) (navigator : Navigator)
    (sink : SinkKind) (timeText : Nat → String) : Except SessionError Session :=
  match h : config.fault? with
  | some fault => .error (.config fault)
  | none =>
    .ok { plan := { id, appId, config, isValid := h, sink, timeText }, source,
          latch := { navigator } }

/-- Ends the loop by force, if the session still can. -/
def abort (s : Session) : Session :=
  if s.holdsLoop then
    { s with
      holdsLoop := false
      phase := if s.phase.isEnded then s.phase else .ended .aborted }
  else s

/-- Moves to a state, unless the present one is final. Tells whether it moved. -/
def moveTo (s : Session) (state : SessionState) : Session × Bool :=
  if s.state.isFinal then (s, false) else ({ s with state }, true)

/-- Stops the session. Only a session that was not over tells of it. -/
def stop (s : Session) (reason : String) : Session :=
  let s := { s with token := (s.token.cancel reason).1 }.abort
  let (s, moved) := s.moveTo .cancelled
  if moved then
    (s.say .session ⟨.debug, "Session stopped"⟩).deliver (.cancelled s.appId reason)
  else s

/-- Gives the session up, which stops it. -/
def drop (s : Session) : Session := { s.stop "session dropped" with isDropped := true }

end Session

end Provisioning
