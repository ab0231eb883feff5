-- Cancellation tokens: the first reason stays, and everyone who waits for
-- a cancellation learns of it.
import Provisioning.Text.Quoted

namespace Provisioning

/-- A token is cancelled once it has a reason. -/
structure CancellationToken where
  reason : Option String := none
deriving DecidableEq, Repr

namespace CancellationToken

def isCancelled (t : CancellationToken) : Bool := t.reason.isSome

/-- Cancels, unless that has been done; tells whether this call did it. -/
def cancel (t : CancellationToken) (reason : String) : CancellationToken × Bool :=
  match t.reason with
  | some _ => (t, false)
  | none => (⟨some reason⟩, true)

def debugText (t : CancellationToken) : String :=
  let reason := match t.reason with
    | some r => "Some(" ++ quoted r ++ ")"
    | none => "None"
  "CancellationToken \x7b cancelled: " ++ toString t.isCancelled ++ ", reason: " ++ reason ++ " \x7d"

end CancellationToken

/-! ## Waiting -/

/-- Where a task stands that waits for a cancellation. It asks to be woken before
it looks at the token, so that no cancellation falls between the two. -/
inductive Waiter
  | starting
  /-- Asked to be woken, not yet looked. -/
  | registered (woken : Bool)
  | parked (woken : Bool)
  | finished
deriving DecidableEq, Repr

namespace Waiter

/-- What a cancellation does to a waiter: it wakes everyone who has asked. -/
def wake : Waiter → Waiter
  | registered _ => registered true
  | parked _ => parked true
  | w => w

/-- One step of a waiter; a parked one moves only when woken. -/
def step (t : CancellationToken) : Waiter → Waiter
  | starting => registered false
  | registered woken => if t.isCancelled then finished else parked woken
  | parked true => starting
  | w => w

/-- Runs a waiter until it is parked for good or finished. It looks at the token
at most twice. -/
def run (t : CancellationToken) (w : Waiter) : Waiter :=
  step t (step t (step t (step t (step t w))))

end Waiter

/-- A token and the tasks that wait for it. -/
structure Waiting where
  token : CancellationToken := {}
  waiters : List Waiter := []

namespace Waiting

/-- Cancels the token; the call that does it wakes every waiter. -/
def cancel (w : Waiting) (reason : String) : Waiting × Bool :=
  let (token, first) := w.token.cancel reason
  ({ token, waiters := if first then w.waiters.map Waiter.wake else w.waiters }, first)

/-- A new waiter. -/
def spawn (w : Waiting) : Waiting := { w with waiters := w.waiters ++ [.starting] }

/-- One step of one waiter. -/
def stepAt (w : Waiting) (i : Nat) : Waiting :=
  { w with waiters := w.waiters.modify i (Waiter.step w.token) }

/-- Lets every waiter run. -/
def run (w : Waiting) : Waiting := { w with waiters := w.waiters.map (Waiter.run w.token) }

def finishedCount (w : Waiting) : Nat := (w.waiters.filter (· == .finished)).length

end Waiting

end Provisioning
