-- Navigation once provisioning is over: navigators take routes, and a
-- latch sends them at most one.
import Provisioning.Log.Format
import Provisioning.Navigation.Route

namespace Provisioning

/-- Who takes routes. -/
inductive Navigator
  /-- Nobody: routes are logged and forgotten. -/
  | detached
  /-- Keeps all routes. -/
  | recording (routes : List Route)
  /-- Hands routes on in order, as long as there is a receiver. -/
  | channel (waiting : List Route) (hasReceiver : Bool)
deriving DecidableEq, Repr

namespace Navigator

/-- A channel that nothing has passed. -/
def newChannel : Navigator := channel [] true

/-- Takes a route. -/
def navigate : Navigator → Route → Navigator × List LogLine
  | detached, _ => (detached, [⟨.debug, "No navigator attached"⟩])
  | recording routes, r => (recording (routes ++ [r]), [])
  | channel waiting true, r => (channel (waiting ++ [r]) true, [])
  | channel waiting false, _ =>
    (channel waiting false, [⟨.debug, "Navigation receiver dropped"⟩])

/-- The routes that a recording navigator holds. -/
def routes : Navigator → List Route
  | recording routes => routes
  | _ => []

/-- The next route of a channel. -/
def receive : Navigator → Navigator × Option Route
  | channel (r :: waiting) true => (channel waiting true, some r)
  | n => (n, none)

/-- Closes the receiving end; what waits there is lost. -/
def dropReceiver : Navigator → Navigator
  | channel _ _ => channel [] false
  | n => n

end Navigator

/-- A navigator that navigates to the view of an application once. -/
structure NavigationLatch where
  navigator : Navigator
  hasFired : Bool := false
deriving DecidableEq, Repr

namespace NavigationLatch

/-- Navigates to the view of an application, the first time only. -/
def fire (t : NavigationLatch) (appId : String) :
    NavigationLatch × Option Route × List LogLine :=
  if t.hasFired then (t, none, [])
  else
    let route := Route.view appId
    let (navigator, lines) := t.navigator.navigate route
    (⟨navigator, true⟩, some route, ⟨.info, "Provisioning finished, navigating"⟩ :: lines)

/-- Goes straight to the navigator. -/
def navigate (t : NavigationLatch) (r : Route) : NavigationLatch × List LogLine :=
  let (navigator, lines) := t.navigator.navigate r
  ({ t with navigator }, lines)

def debugText (t : NavigationLatch) : String :=
  "NavigationTrigger \x7b fired: " ++ toString t.hasFired ++ ", .. \x7d"

end NavigationLatch

end Provisioning
