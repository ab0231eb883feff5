-- What comes to a session while it is not over: its loop begins, the result of
-- a fetch arrives, a stop ends it. The history of a run is the row of these.
import Provisioning.Proofs.Session.Happening

namespace Provisioning

/-- Something that makes a difference to a session that is not over. -/
inductive Occurrence
  /-- The loop runs for the first time. -/
  | began
  | arrived (result : FetchResult)
  | stopped (reason : String)

/-- The result that arrives, if one does. -/
def Occurrence.result? : Occurrence → Option FetchResult
  | arrived result => some result
  | _ => none

/-- The record of a result. -/
def FetchResult.record? : FetchResult → Option Application
  | .ok a => some a
  | .error _ => none

/-- Is this a record with the terminal state? -/
def FetchResult.isTerminal (c : Config) (result : FetchResult) : Bool :=
  result.record?.any fun a => (a.state c).any c.isTerminal

namespace Session

/-- What the end of a fetch means to a session that polls. A fetch that ends with an
incident brings no result. -/
def fetchOccurrence? (s : Session) : Option Occurrence :=
  match s.source.incident? with
  | some (.stop reason) => some (.stopped reason)
  | some .crash => none
  | none => some (.arrived (s.source.answer s.appId).2)

/-- What the loop's next move means to a session that is not over. -/
def moveOccurrence? (s : Session) : Option Occurrence :=
  match s.phase with
  | .ready => some .began
  | .fetching => s.fetchOccurrence?
  | _ => none

/-- What something that happens means to a session. To a session that is over,
nothing means anything. -/
def occurrence? (s : Session) (h : Happening) : Option Occurrence :=
  if s.state.isFinal then none
  else match h with
    | .stop reason => some (.stopped reason)
    | .drop => some (.stopped "session dropped")
    | .move => s.moveOccurrence?
    | _ => none

/-- Whatever is not a stop comes with a move of the loop. -/
theorem move_of_occurrence {s : Session} {h : Happening} {o : Occurrence}
    (ho : s.occurrence? h = some o) (hother : ∀ reason, o ≠ .stopped reason) : h = .move := by
  unfold occurrence? at ho
  split at ho
  · cases ho
  · cases h with
    | stop reason => exact absurd (Option.some.inj ho).symm (hother reason)
    | drop => exact absurd (Option.some.inj ho).symm (hother _)
    | clock ms => cases ho
    | push entry => cases ho
    | release => cases ho
    | move => rfl

/-- What has come to a session, in order. -/
def history (s : Session) : List Happening → List Occurrence
  | [] => []
  | h :: hs => (s.occurrence? h).toList ++ (s.happen h).history hs

/-- The results of the fetches that ended before the session was over, in order. -/
def results (s : Session) (hs : List Happening) : List FetchResult :=
  (s.history hs).filterMap Occurrence.result?

/-- The records among them. -/
def records (s : Session) (hs : List Happening) : List Application :=
  (s.results hs).filterMap FetchResult.record?

theorem history_snoc (s : Session) (hs : List Happening) (h : Happening) :
    s.history (hs ++ [h]) = s.history hs ++ ((s.play hs).occurrence? h).toList := by
  induction hs generalizing s with
  | nil => simp [history]
  | cons h' hs ih => simp [history, ih]

theorem results_snoc (s : Session) (hs : List Happening) (h : Happening) :
    s.results (hs ++ [h]) =
      s.results hs ++ (((s.play hs).occurrence? h).bind Occurrence.result?).toList := by
  unfold results
  rw [history_snoc, List.filterMap_append]
  cases (s.play hs).occurrence? h with
  | none => rfl
  | some o => cases hr : o.result? <;> simp [hr]

theorem records_cons (s : Session) (h : Happening) (hs : List Happening) :
    s.records (h :: hs) =
      (((s.occurrence? h).bind Occurrence.result?).bind FetchResult.record?).toList ++
        (s.happen h).records hs := by
  unfold records results
  rw [history, List.filterMap_append, List.filterMap_append]
  cases s.occurrence? h with
  | none => rfl
  | some o =>
    cases hr : o.result? with
    | none => simp [hr]
    | some r => cases hrecord : r.record? <;> simp [hr, hrecord]

theorem records_snoc (s : Session) (hs : List Happening) (h : Happening) :
    s.records (hs ++ [h]) = s.records hs ++
      ((((s.play hs).occurrence? h).bind Occurrence.result?).bind FetchResult.record?).toList := by
  unfold records
  rw [results_snoc, List.filterMap_append]
  cases ((s.play hs).occurrence? h).bind Occurrence.result? with
  | none => rfl
  | some r => cases hr : r.record? <;> simp [hr]

end Session

end Provisioning
