-- The passing of time: the loop makes each move when it is due. Moves at one
-- time come to an end, because a round of the loop has at least one rest in it.
import Provisioning.Session.Loop

namespace Provisioning

/-! ## How far a round has come -/

/-- How many moves at one time may follow before the loop does this. -/
def LoopNext.rank : LoopNext → Nat
  | finish _ => 0
  | rest => 2
  | fetch => 20

/-- How many moves at one time may still follow. -/
def LoopPhase.rank : LoopPhase → Nat
  | ready => 40
  | fetching => 20
  | emitting _ todo next => next.rank + todo.length + 1
  | resting => 2
  | ended _ => 0

namespace Session

/-! ## The loop's clock -/

@[simp] theorem say_since (s : Session) (origin : LogOrigin) (line : LogLine) :
    (s.say origin line).since = s.since := rfl

@[simp] theorem deliver_since (s : Session) (e : Event) : (s.deliver e).since = s.since := by
  unfold deliver; split <;> rfl

@[simp] theorem moveTo_since (s : Session) (state : SessionState) :
    (s.moveTo state).1.since = s.since := by
  unfold moveTo; split <;> rfl

@[simp] theorem abort_since (s : Session) : s.abort.since = s.since := by
  unfold abort; split <;> rfl

@[simp] theorem stop_since (s : Session) (reason : String) : (s.stop reason).since = s.since := by
  simp only [stop]; split <;> simp

@[simp] theorem conclude_since (s : Session) : s.conclude.since = s.since := by
  simp only [conclude]
  split
  · split <;> simp
  · simp

@[simp] theorem beginFetch_since (s : Session) : s.beginFetch.since = s.since := by
  simp only [beginFetch]
  split <;> rfl

@[simp] theorem enter_since (s : Session) (next : LoopNext) : (s.enter next).since = s.since := by
  unfold enter
  split
  · rfl
  · split <;> simp
  · split <;> simp

@[simp] theorem perform_since (s : Session) (todo : List Output) (next : LoopNext) :
    (s.perform todo next).since = s.since := by
  induction todo generalizing s with
  | nil => simp [perform]
  | cons o todo ih =>
    cases o with
    | say line => simp [perform, ih]
    | emit event => simp only [perform]; split <;> simp [ih]

@[simp] theorem takeRecord_since (s : Session) (a : Application) :
    (s.takeRecord a).since = s.since := by
  simp only [takeRecord]
  split
  · simp
  · split <;> simp [navigate]

@[simp] theorem takeResult_since (s : Session) (result : FetchResult) :
    (s.takeResult result).since = s.since := by
  unfold takeResult
  split
  · simp
  · split <;> simp

@[simp] theorem finishFetch_since (s : Session) : s.finishFetch.since = s.since := by
  simp only [finishFetch]
  split <;> simp

@[simp] theorem begin_since (s : Session) : s.begin.since = s.since := by
  unfold begin
  split <;> simp

/-- A move happens when it is due. -/
theorem move_since {s : Session} {due : Nat} (h : s.due? = some due) : s.move.since = due := by
  unfold due? at h
  unfold move
  split at h <;> simp_all [later]
  all_goals split at h <;> simp_all

theorem since_le_due {s : Session} {due : Nat} (h : s.due? = some due) : s.since ≤ due := by
  unfold due? at h
  split at h <;> simp at h <;> (try split at h) <;> omega

/-! ## The rank of a phase -/

theorem conclude_rank (s : Session) : s.conclude.phase.rank ≤ 1 := by
  simp only [conclude]
  split
  · split <;> simp [LoopPhase.rank, LoopNext.rank]
  · simp [LoopPhase.rank]

theorem beginFetch_rank (s : Session) : s.beginFetch.phase.rank ≤ 20 := by
  simp only [beginFetch]
  split <;> simp [say, LoopPhase.rank]

theorem enter_rank (s : Session) (next : LoopNext) : (s.enter next).phase.rank ≤ next.rank := by
  have h := s.conclude_rank
  unfold enter
  split
  · simp [LoopPhase.rank]
  · split
    · simp only [LoopNext.rank]; omega
    · exact s.beginFetch_rank
  · split
    · simp only [LoopNext.rank]; omega
    · simp [LoopPhase.rank, LoopNext.rank]

theorem perform_rank (s : Session) (todo : List Output) (next : LoopNext) :
    (s.perform todo next).phase.rank ≤ next.rank + todo.length := by
  induction todo generalizing s with
  | nil => simpa [perform] using s.enter_rank next
  | cons o todo ih =>
    cases o with
    | say line =>
      have := ih (s.say .poller line)
      simp only [perform, List.length_cons]
      omega
    | emit event =>
      simp only [perform, List.length_cons]
      split
      · have := ih (s.deliver event)
        omega
      · simp only [LoopPhase.rank]; omega

theorem recordOutputs_length (appId : String) (state : Option String) (level : Option Nat)
    (durationMs : Double) (isTerminal : Bool) (route : Option Route) :
    (recordOutputs appId state level durationMs isTerminal route).length ≤ 5 := by
  unfold recordOutputs oddStateOutputs
  split <;> cases isTerminal <;> cases route <;> simp

theorem takeRecord_rank (s : Session) (a : Application) : (s.takeRecord a).phase.rank ≤ 7 := by
  have h := s.conclude_rank
  simp only [takeRecord]
  split
  · omega
  · refine Nat.le_trans (perform_rank _ _ _) (Nat.add_le_add ?_ (recordOutputs_length ..))
    split <;> simp [LoopNext.rank]

theorem takeResult_rank (s : Session) (result : FetchResult) :
    (s.takeResult result).phase.rank ≤ 7 := by
  have h := s.conclude_rank
  unfold takeResult
  split
  · omega
  · split
    · exact takeRecord_rank _ _
    · exact Nat.le_trans (perform_rank _ _ _) (by simp [LoopNext.rank, failureOutputs])

theorem finishFetch_rank (s : Session) : s.finishFetch.phase.rank ≤ 7 := by
  simp only [finishFetch]
  split
  · simp [LoopPhase.rank]
  · exact takeResult_rank _ _
  · exact takeResult_rank _ _

theorem begin_rank (s : Session) : s.begin.phase.rank ≤ 21 := by
  have h := s.conclude_rank
  unfold begin
  split
  · omega
  · exact Nat.le_trans (perform_rank _ _ _) (by simp [LoopNext.rank])

/-- A move that takes no time brings the round further. -/
theorem move_rank {s : Session} (h : s.due? = some s.since) :
    s.move.phase.rank < s.phase.rank := by
  have hc := s.conclude_rank
  have hp := s.plan.restMs_pos
  unfold due? at h
  unfold move
  split at h
  all_goals rename_i hphase
  all_goals simp only [hphase]
  · exact Nat.lt_of_le_of_lt s.begin_rank (by simp [LoopPhase.rank])
  · split
    · exact Nat.lt_of_le_of_lt hc (by simp [LoopPhase.rank])
    · exact Nat.lt_of_le_of_lt (finishFetch_rank _) (by simp [LoopPhase.rank])
  · exact Nat.lt_of_le_of_lt (perform_rank _ _ _) (by simp [LoopPhase.rank])
  · split
    · exact Nat.lt_of_le_of_lt hc (by simp [LoopPhase.rank])
    · rename_i hcancel
      simp only [hcancel, Option.some.injEq] at h
      simp at h
      omega
  · simp at h

/-! ## Running -/

/-- Makes the moves that are due before a time, as long as a condition holds. -/
def runWhile (goes : Session → Bool) (limit : Nat) (s : Session) : Session :=
  match _h : s.due? with
  | none => s
  | some due => if due < limit ∧ goes s then runWhile goes limit s.move else s
termination_by (limit - s.since, s.phase.rank)
decreasing_by
  rename_i hd
  have hsince := move_since _h
  have hle := since_le_due _h
  by_cases he : due = s.since
  · subst he
    rw [hsince]
    exact Prod.Lex.right _ (move_rank _h)
  · apply Prod.Lex.left
    omega

/-- Makes all moves that are due by now. -/
def settle (s : Session) : Session := s.runWhile (fun _ => true) (s.now + 1)

/-- Sets the clock. -/
def setClock (s : Session) (now : Nat) : Session := { s with now }

/-- Lets time pass. -/
def advance (s : Session) (ms : Nat) : Session := (s.setClock (s.now + ms)).settle

end Session

end Provisioning
