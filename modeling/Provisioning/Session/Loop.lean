-- The poll loop: fetch, make known, rest, and again. Only one fetch is under
-- way at a time, and a cancelled token ends the loop at its next wait.
import Provisioning.Session.Basic

namespace Provisioning.Session

/-! ## Ending and going on -/

/-- Ends the loop after a cancellation. If nobody has done so, it moves the
session to its end and tells of it. -/
def conclude (s : Session) : Session :=
  let (s, moved) := s.moveTo .cancelled
  if moved then
    let reason := s.token.reason.getD "cancelled"
    let event := Event.cancelled s.appId reason
    let s := s.say .poller ⟨.info, "Polling stopped"⟩
    if s.plan.sink.delayMs = 0 then
      { s.deliver event with phase := .ended (.finished .cancelled) }
    else { s with phase := .emitting event [] (.finish .cancelled) }
  else { s with phase := .ended (.finished .cancelled) }

/-- A fetch begins. -/
def beginFetch (s : Session) : Session :=
  let s := { s with source := s.source.call, phase := .fetching }
  match s.source.opening with
  | some line => s.say .source line
  | none => s

/-- Goes on to what comes next. A cancelled token comes before any wait. -/
def enter (s : Session) (next : LoopNext) : Session :=
  match next with
  | .finish outcome => { s with phase := .ended (.finished outcome) }
  | .fetch => if s.token.isCancelled then s.conclude else s.beginFetch
  | .rest => if s.token.isCancelled then s.conclude else { s with phase := .resting }

/-- Makes things known, one by one, and goes on. A sink that takes time makes the
loop wait. -/
def perform (s : Session) : List Output → LoopNext → Session
  | [], next => s.enter next
  | .say line :: todo, next => (s.say .poller line).perform todo next
  | .emit event :: todo, next =>
    if s.plan.sink.delayMs = 0 then (s.deliver event).perform todo next
    else { s with phase := .emitting event todo next }

/-! ## Results -/

def scheduledLine : LogLine := ⟨.debug, "Next fetch scheduled"⟩

/-- Navigates, if it has not been done. -/
def navigate (s : Session) : Session × Option Route :=
  let (latch, route, lines) := s.latch.fire s.appId
  ({ s with latch, logs := s.logs ++ (lines.map (LogRecord.mk .navigation)).toArray }, route)

/-- What a record without a stage brings out. -/
def oddStateOutputs (appId : String) (state : Option String) (level : Option Nat) : List Output :=
  match state, level with
  | some state, none =>
    [.say ⟨.warn, "State is not a configured stage"⟩, .emit (.unknownStage appId state)]
  | none, _ => [.say ⟨.debug, "Record carries no state"⟩]
  | some _, some _ => []

/-- Everything that a record brings out, with the route if it led to one. -/
def recordOutputs (appId : String) (state : Option String) (level : Option Nat)
    (durationMs : Double) (isTerminal : Bool) (route : Option Route) : List Output :=
  oddStateOutputs appId state level ++
    [.say ⟨.debug, "Fetched application"⟩, .emit (.fetched appId state level durationMs)] ++
    if isTerminal then (route.map fun r => Output.emit (.terminal appId r.path)).toList
    else [.say scheduledLine]

/-- Takes a record: makes a snapshot of it, and ends polling if its state is the
terminal one. -/
def takeRecord (s : Session) (a : Application) : Session :=
  if s.state.isFinal then s.conclude
  else
    let latest := s.latest.next s.config a (s.plan.timeText s.since)
    let isTerminal := latest.state.any s.config.isTerminal
    let s := { s with latest }
    let (s, route) := if isTerminal then { s with state := .terminal }.navigate else (s, none)
    s.perform
      (recordOutputs s.appId latest.state latest.level (.ofNat s.source.delayMs) isTerminal route)
      (if isTerminal then .finish .terminal else .rest)

/-- What a failed fetch brings out. -/
def failureOutputs (appId : String) (e : FetchError) : List Output :=
  [.say ⟨.warn,
    if e.isTransient then "Fetch failed, retrying next cycle"
    else "Fetch rejected, retrying next cycle"⟩,
   .emit (.ofError appId e), .say scheduledLine]

/-- Takes the result of a fetch, unless the token has been cancelled. -/
def takeResult (s : Session) (result : FetchResult) : Session :=
  if s.token.isCancelled then s.conclude
  else match result with
    | .ok a => s.takeRecord a
    | .error e => s.perform (failureOutputs s.appId e) .rest

/-- Ends a fetch. -/
def finishFetch (s : Session) : Session :=
  let incident := s.source.incident?
  let (source, result) := s.source.answer s.appId
  let s := { s with source }
  match incident with
  | some .crash => { s with phase := .ended .crashed }
  | some (.stop reason) => (s.stop reason).takeResult result
  | none => s.takeResult result

/-! ## Steps -/

/-- The loop runs for the first time. -/
def begin (s : Session) : Session :=
  if s.token.isCancelled then s.conclude
  else (s.moveTo .polling).1.perform [.emit (.started s.plan.id s.appId)] .fetch

/-- When the loop moves next. A cancelled token ends a fetch and a rest at once. -/
def due? (s : Session) : Option Nat :=
  match s.phase with
  | .ready => some s.since
  | .fetching => some (if s.token.isCancelled then s.since else s.since + s.source.delayMs)
  | .emitting _ _ _ => some (s.since + s.plan.sink.delayMs)
  | .resting => some (if s.token.isCancelled then s.since else s.since + s.plan.restMs)
  | .ended _ => none

/-- Lets some time pass within a phase. -/
def later (s : Session) (ms : Nat) : Session := { s with since := s.since + ms }

/-- The loop's next move, at the time when it is due. -/
def move (s : Session) : Session :=
  match s.phase with
  | .ready => s.begin
  | .fetching =>
    if s.token.isCancelled then s.conclude else (s.later s.source.delayMs).finishFetch
  | .emitting event todo next =>
    ((s.later s.plan.sink.delayMs).deliver event).perform todo next
  | .resting => if s.token.isCancelled then s.conclude else (s.later s.plan.restMs).enter .fetch
  | .ended _ => s

end Provisioning.Session
