-- What a session is started with, and what its poll loop can be about.
import Provisioning.Event.Sink
import Provisioning.Fetch.Playback
import Provisioning.Navigation.Latch

namespace Provisioning

/-- A valid configuration rests between fetches. -/
theorem Config.ceilMillis_pollInterval_pos {c : Config} (h : c.fault? = none) :
    0 < c.pollInterval.ceilMillis := by
  simp only [Config.fault?, Option.or_eq_none_iff] at h
  have hs := h.1.1.1.1.2
  simp only [Config.secondsFault?, ite_eq_left_iff, reduceCtorEq, imp_false, Decidable.not_not,
    Config.isUsableSeconds, Bool.and_eq_true, Bool.not_eq_true'] at hs
  have hz : c.pollInterval.nanos ≠ 0 := by
    intro h0
    simp [Duration.isZero, h0] at hs
  simp only [Duration.ceilMillis, nanosPerMilli]
  omega

/-- What stays the same throughout a session. -/
structure SessionPlan where
  id : String
  appId : String
  config : Config
  isValid : config.fault? = none
  sink : SinkKind := .discarding
  /-- The text of a time, given in milliseconds from the start. -/
  timeText : Nat → String := fun _ => ""

/-- How long the loop rests, in milliseconds. -/
def SessionPlan.restMs (p : SessionPlan) : Nat := p.config.pollInterval.ceilMillis

theorem SessionPlan.restMs_pos (p : SessionPlan) : 0 < p.restMs :=
  Config.ceilMillis_pollInterval_pos p.isValid

/-! ## The poll loop -/

/-- How polling came out. -/
inductive PollVerdict
  | terminal
  | cancelled
deriving DecidableEq, Repr

/-- How the loop ended. -/
inductive LoopEnd
  | finished (outcome : PollVerdict)
  /-- The session ended it. -/
  | aborted
  /-- It came down by itself. -/
  | crashed
deriving DecidableEq, Repr

/-- Something that the loop makes known. -/
inductive Output
  | say (line : LogLine)
  | emit (event : Event)
deriving DecidableEq, Repr

/-- What the loop does after it has made everything known. -/
inductive LoopNext
  | fetch
  | rest
  | finish (outcome : PollVerdict)
deriving DecidableEq, Repr

/-- What the loop is about. Nothing but these makes it wait. -/
inductive LoopPhase
  /-- It has not run yet. -/
  | ready
  | fetching
  /-- The sink takes an event; more is to be made known after it. -/
  | emitting (event : Event) (todo : List Output) (next : LoopNext)
  | resting
  | ended (how : LoopEnd)
deriving DecidableEq, Repr

def LoopPhase.isEnded : LoopPhase → Bool
  | ended _ => true
  | _ => false

end Provisioning
