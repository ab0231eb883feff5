-- What can be done to a session: let time pass, wait for its end or for news,
-- stop it, and give it up.
import Provisioning.Session.Time

namespace Provisioning

/-- What a wait for the end of a session brings. -/
inductive WaitResult
  | ended (outcome : PollVerdict)
  /-- The loop came down. -/
  | failed
  | notYet
deriving DecidableEq, Repr

/-- What someone learns who holds the loop. -/
def LoopPhase.waitResult : LoopPhase → WaitResult
  | ended (.finished outcome) => .ended outcome
  | ended .aborted => .ended .cancelled
  | ended .crashed => .failed
  | _ => .notYet

namespace Session

/-- What someone learns who does not hold the loop any more: the state decides, and
only one state counts as terminal. -/
def stateResult (s : Session) : WaitResult :=
  .ended (if s.state = .terminal then .terminal else .cancelled)

/-! ## Waiting for the end -/

/-- Gives the loop out of hand. It goes on by itself. -/
def release (s : Session) : Session := { s with holdsLoop := false }

/-- Sets the clock to the loop's latest move. -/
def catchUp (s : Session) : Session := s.setClock (max s.now s.since)

/-- Starts to wait, and gives up at once. The loop is out of hand from then on. -/
def pollWait (s : Session) : Session × WaitResult :=
  (s.release, if s.holdsLoop then s.phase.waitResult else s.stateResult)

/-- Waits for the loop to end, for a limited time. -/
def wait (s : Session) (limitMs : Nat) : Session × WaitResult :=
  if s.holdsLoop then
    let ran := s.release.runWhile (fun s => !s.phase.isEnded) (s.now + limitMs)
    match ran.phase.waitResult with
    | .notYet => (ran.setClock (s.now + limitMs), .notYet)
    | result => (ran.catchUp, result)
  else (s, s.stateResult)

/-! ## Waiting for news -/

/-- Waits until there are news for a reader, for a limited time. -/
def awaitNews (s : Session) (r : ProgressReader) (limitMs : Nat) : Session × ProgressReader × News :=
  let ran := s.runWhile (fun s => (r.ask s.progress).2 == .nothing) (s.now + limitMs)
  match r.ask ran.progress with
  | (r, .nothing) => (ran.setClock (s.now + limitMs), r, .nothing)
  | (r, news) => (ran.catchUp, r, news)

end Session

/-! ## Steps -/

/-- One thing done to a session. -/
inductive SessionStep
  | settle
  | advance (ms : Nat)
  | stop (reason : String)
  | drop
  /-- Adds an entry to the source's script. -/
  | push (entry : FetchResult)
  | wait (limitMs : Nat)
  | pollWait
  /-- Gives up a wait and stops the session before anything else happens. -/
  | pollWaitStop (reason : String)

namespace Session

/-- Does one thing, before what it makes due. A session that has been given up can
only be watched. -/
def act (s : Session) : SessionStep → Session × Option WaitResult
  | .settle => (s, none)
  | .advance ms => (s.setClock (s.now + ms), none)
  | .push entry => ({ s with source := s.source.push entry }, none)
  | .stop reason => (if s.isDropped then s else s.stop reason, none)
  | .drop => (if s.isDropped then s else s.drop, none)
  | .wait limitMs =>
    if s.isDropped then (s, none)
    else
      let (s, result) := s.wait limitMs
      (s, some result)
  | .pollWait =>
    if s.isDropped then (s, none)
    else
      let (s, result) := s.pollWait
      (s, some result)
  | .pollWaitStop reason =>
    if s.isDropped then (s, none)
    else
      let (s, result) := s.pollWait
      (s.stop reason, some result)

/-- Does one thing and all that it makes due. -/
def step (s : Session) (step : SessionStep) : Session × Option WaitResult :=
  let (s, result) := s.act step
  (s.settle, result)

/-- Does one thing after the other. -/
def run (s : Session) (steps : List SessionStep) : Session :=
  steps.foldl (fun s step => (s.step step).1) s

end Session

end Provisioning
