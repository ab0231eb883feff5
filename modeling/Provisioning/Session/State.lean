-- The life of a session: it waits to run, polls, and ends in one of two
-- ways that nothing leaves.
import Provisioning.Json.Decode

namespace Provisioning

open Json

inductive SessionState
  | idle
  | polling
  | terminal
  | cancelled
deriving DecidableEq, Repr

namespace SessionState

/-- Can nothing follow this state? -/
def isFinal : SessionState → Bool
  | terminal | cancelled => true
  | _ => false

def name : SessionState → String
  | idle => "idle"
  | polling => "polling"
  | terminal => "terminal"
  | cancelled => "cancelled"

/-- The name of the state in debug output. -/
def debugName : SessionState → String
  | idle => "Idle"
  | polling => "Polling"
  | terminal => "Terminal"
  | cancelled => "Cancelled"

def all : List SessionState := [idle, polling, terminal, cancelled]

/-! ## JSON -/

def toJson (s : SessionState) : Value := .string s.name

def ofNode (depth : Nat) : Node → Decoded SessionState :=
  decodeVariant depth (all.map name) fun n => all.find? (·.name == n)

end SessionState

end Provisioning
