-- Sources that answer from a script, entry by entry.
import Provisioning.Application.Basic
import Provisioning.Errors
import Provisioning.Log.Format

namespace Provisioning

abbrev FetchResult := Except FetchError Application

/-- What may happen at the end of a fetch besides an answer. -/
inductive Incident
  /-- The source stops the session. -/
  | stop (reason : String)
  /-- The source brings the poll loop down. -/
  | crash
deriving DecidableEq, Repr

/-- A source that takes its time for each answer. Every answer uses up one entry
of the script, except for the last entry, which stays. -/
structure Playback where
  script : List FetchResult := []
  /-- How long fetches take, counted from 1. -/
  latencyMs : Nat → Nat := fun _ => 0
  /-- What is logged when a fetch begins. -/
  opening : Option LogLine := none
  listing : List Application := []
  /-- What happens at the end of fetches, counted from 1. -/
  incidents : List (Nat × Incident) := []
  /-- How many fetches have begun. -/
  calls : Nat := 0
  /-- How many fetches have ended. -/
  completed : Nat := 0

namespace Playback

/-- Adds an entry at the end of the script. -/
def push (s : Playback) (entry : FetchResult) : Playback :=
  { s with script := s.script ++ [entry] }

/-- A fetch begins. -/
def call (s : Playback) : Playback := { s with calls := s.calls + 1 }

/-- How long the present fetch takes. -/
def delayMs (s : Playback) : Nat := s.latencyMs s.calls

/-- The answer of a source that has no script. -/
def exhausted (appId : String) : FetchError :=
  .status ("scripted://applications/" ++ appId) 404 "script exhausted"

/-- A fetch ends with the next entry. -/
def answer (s : Playback) (appId : String) : Playback × FetchResult :=
  let s := { s with completed := s.completed + 1 }
  match s.script with
  | [] => (s, .error (exhausted appId))
  | [entry] => (s, entry)
  | entry :: rest => ({ s with script := rest }, entry)

/-- What happens at the end of the present fetch. -/
def incident? (s : Playback) : Option Incident :=
  (s.incidents.find? (·.1 == s.calls)).map Prod.snd

end Playback

end Provisioning
