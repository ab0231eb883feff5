-- Watching an application: a session over HTTP, whose progress is printed.
import Provisioning.CommandLine.Failure
import Provisioning.CommandLine.Listing
import Provisioning.Session.Steps

namespace Provisioning

/-- A session that is watched, and what has been printed. -/
structure Watch where
  session : Session
  asJson : Bool
  reader : ProgressReader := {}
  output : Array String := #[]

namespace Watch

/-- Starts to watch. -/
def ofSession (session : Session) (asJson : Bool) : Watch where
  session
  asJson
  output := #["Tracking " ++ session.route.path]

/-- A snapshot as it is printed. -/
def block (w : Watch) (p : Snapshot) : List String :=
  if w.asJson then [p.toJson.text] else p.lines w.session.config.stages

/-- Prints what is new. -/
def look (w : Watch) : Watch :=
  match w.reader.ask w.session.progress with
  | (reader, .changed) =>
    { w with reader, output := w.output ++ (w.block w.session.latest).toArray }
  | (reader, _) => { w with reader }

@[simp] theorem look_session (w : Watch) : w.look.session = w.session := by
  unfold look
  split <;> rfl

/-- The session's next move, and what is new after it. -/
def move (w : Watch) : Watch := { w with session := w.session.move : Watch }.look

@[simp] theorem move_session (w : Watch) : w.move.session = w.session.move := by
  simp [move]

/-- Makes the moves that are due before a time, as long as a condition holds. -/
def runWhile (goes : Session → Bool) (limit : Nat) (w : Watch) : Watch :=
  match _h : w.session.due? with
  | none => w
  | some due => if due < limit ∧ goes w.session then w.move.runWhile goes limit else w
termination_by (limit - w.session.since, w.session.phase.rank)
decreasing_by
  rename_i hd
  have hsince := Session.move_since _h
  have hle := Session.since_le_due _h
  rw [move_session]
  by_cases he : due = w.session.since
  · subst he
    rw [hsince]
    exact Prod.Lex.right _ (Session.move_rank _h)
  · apply Prod.Lex.left
    omega

/-- The user's interruption stops the session. -/
def interrupt (w : Watch) : Watch := { w with session := w.session.stop "interrupted" }

/-- The last line, or the failure of the session, unless it goes on. -/
def ending? (w : Watch) : Option (Except CommandFailure (List String)) :=
  match w.session.pollWait.2 with
  | .ended .terminal =>
    some (.ok ((w.session.latch.navigator.receive).2.map fun r =>
      "Provisioning finished, continue at " ++ r.path).toList)
  | .ended .cancelled => some (.ok ["Stopped before provisioning finished"])
  | .failed => some (.error ⟨(SessionError.internal "poll task failed").message, []⟩)
  | .notYet => none

/-- What the end of the poll loop logs, where spans are logged. -/
def closing (w : Watch) : List LogRecord :=
  if w.session.phase.isEnded then [⟨.poller, ⟨.info, "close"⟩⟩] else []

end Watch

end Provisioning
