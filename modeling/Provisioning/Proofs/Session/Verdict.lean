-- How the loop of a session says that it ended. That is what the state says, but for
-- a stop that takes the loop down while it tells of its end.
import Provisioning.Proofs.Session.Effect

namespace Provisioning

/-- The state of a session that polled to this end. -/
def PollVerdict.state : PollVerdict → SessionState
  | terminal => .terminal
  | cancelled => .cancelled

theorem PollVerdict.state_isFinal (outcome : PollVerdict) : outcome.state.isFinal = true := by
  cases outcome <;> rfl

theorem PollVerdict.state_eq_terminal {outcome : PollVerdict} :
    outcome.state = .terminal ↔ outcome = .terminal := by
  cases outcome <;> simp [state]

/-- What the loop will say of its end, once that is settled. -/
def LoopPhase.verdict? : LoopPhase → Option PollVerdict
  | emitting _ _ (.finish outcome) => some outcome
  | ended (.finished outcome) => some outcome
  | ended .aborted => some .cancelled
  | _ => none

theorem LoopPhase.verdict?_of_waitResult {p : LoopPhase} {outcome : PollVerdict}
    (h : p.waitResult = .ended outcome) : p.verdict? = some outcome := by
  unfold waitResult at h
  split at h <;> cases h <;> rfl

namespace Session

/-! ## The loop says what the state says -/

def Honest (s : Session) : Prop :=
  ∀ outcome, s.phase.verdict? = some outcome → s.state = outcome.state

/-- May the loop go on like this? It may end only in the state that it will tell of, and
it goes on only before the terminal state. -/
def Admits (s : Session) : LoopNext → Prop
  | .finish outcome => s.state = outcome.state
  | _ => s.state ≠ .terminal

theorem Honest.of_silent {s : Session} (h : s.phase.verdict? = none) : s.Honest := by
  intro outcome hverdict
  rw [h] at hverdict
  cases hverdict

theorem conclude_honest {s : Session} (h : s.state ≠ .terminal) : s.conclude.Honest := by
  by_cases hfinal : s.state.isFinal = true
  · have hcancelled : s.state = .cancelled := (s.state.isFinal_iff.mp hfinal).resolve_left h
    rw [conclude_of_final hfinal]
    rintro outcome ⟨⟩
    exact hcancelled
  · simp only [conclude, moveTo, if_neg hfinal, if_true]
    split
    · rintro outcome ⟨⟩
      exact (deliver_standing _ _).state
    · rintro outcome ⟨⟩
      rfl

theorem enter_honest {s : Session} {next : LoopNext} (h : s.Admits next) :
    (s.enter next).Honest := by
  unfold enter
  split
  · rintro outcome ⟨⟩
    exact h
  · split
    · exact conclude_honest h
    · apply Honest.of_silent
      simp only [beginFetch]
      split <;> rfl
  · split
    · exact conclude_honest h
    · exact Honest.of_silent rfl

theorem Admits.of_state {s t : Session} {next : LoopNext} (hstate : t.state = s.state)
    (h : s.Admits next) : t.Admits next := by
  cases next with
  | fetch => exact fun ht => h (hstate ▸ ht)
  | rest => exact fun ht => h (hstate ▸ ht)
  | finish outcome => exact hstate.trans h

theorem perform_honest {s : Session} {next : LoopNext} (todo : List Output) (h : s.Admits next) :
    (s.perform todo next).Honest := by
  induction todo generalizing s with
  | nil => exact enter_honest h
  | cons o todo ih =>
    cases o with
    | say line => exact ih (h.of_state rfl)
    | emit event =>
      simp only [perform]
      split
      · exact ih (h.of_state (s.deliver_standing event).state)
      · intro outcome hverdict
        cases next with
        | fetch => cases hverdict
        | rest => cases hverdict
        | finish o => cases hverdict; exact h

theorem takeResult_honest {s : Session} (hs : s.Steady) (hpolling : s.state = .polling)
    (result : FetchResult) : (s.takeResult result).Honest := by
  have hlive : s.state.isFinal = false := by rw [hpolling]; rfl
  have hother : s.state ≠ .terminal := by simp [hpolling]
  unfold takeResult
  rw [if_neg (by simp [hs.token_of_live hlive])]
  cases result with
  | error e => exact perform_honest _ hother
  | ok a =>
    by_cases hterminal : (a.state s.config).any s.config.isTerminal = true
    · simp only [takeRecord_of_terminal hlive (hs.unfired_of_polling hpolling) hterminal]
      exact perform_honest _ rfl
    · simp only [takeRecord_of_progress hlive (by simpa using hterminal)]
      exact perform_honest _ hother

theorem finishFetch_honest {s : Session} (hs : s.Sound) (hpolling : s.state = .polling) :
    s.finishFetch.Honest := by
  have hsame : SameStanding s s.answered := ⟨rfl, rfl, rfl, rfl, rfl⟩
  have hsteady : s.answered.Steady := hsame.steady hs.toSteady
  have hstate : s.answered.state = .polling := hpolling
  rcases hi : s.source.incident? with _ | ⟨reason⟩ | _
  · rw [finishFetch_of_answer hi]
    exact takeResult_honest hsteady hstate _
  · rw [finishFetch_of_stop hi, takeResult_of_cancelled (s.answered.stop_stopped reason).token]
    apply conclude_honest
    rw [stop_state, hstate]
    simp [SessionState.isFinal]
  · rw [finishFetch_of_crash hi]
    exact Honest.of_silent rfl

theorem begin_honest {s : Session} (hs : s.Sound) (hready : s.phase = .ready) :
    s.begin.Honest := by
  by_cases hfinal : s.state.isFinal = true
  · rw [begin_of_final hs hready hfinal]
    apply conclude_honest
    rcases hs.unrun_of_ready hready with h | h <;> simp [h]
  · rw [begin_of_idle hs.toSteady (hs.idle_of_ready hready (by simpa using hfinal))]
    exact perform_honest _ (by simp [Admits, running])

/-- What the loop has in hand may be told, and the loop may go on after it. -/
theorem Honest.admits {s : Session} (hs : s.Sound) (h : s.Honest) {event : Event}
    {todo : List Output} {next : LoopNext} (hphase : s.phase = .emitting event todo next) :
    s.Admits next := by
  have hgoes : (∀ outcome, next ≠ .finish outcome) → s.state ≠ .terminal := by
    intro hnext hterminal
    obtain ⟨outcome, he⟩ := hs.finish_of_emitting hterminal hphase
    exact hnext outcome he
  cases next with
  | fetch => exact hgoes (by simp)
  | rest => exact hgoes (by simp)
  | finish outcome => exact h outcome (by rw [hphase]; rfl)

-- As before, how long a phase takes is a variable.

theorem finishFetch_later_honest {s : Session} (hs : s.Sound) (hpolling : s.state = .polling)
    (ms : Nat) : (s.later ms).finishFetch.Honest :=
  finishFetch_honest (later_sound hs ms) hpolling

theorem enter_later_honest {s : Session} {next : LoopNext} (h : s.Admits next) (ms : Nat) :
    ((s.later ms).enter next).Honest :=
  enter_honest (s := s.later ms) (h.of_state rfl)

theorem perform_later_honest {s : Session} (hs : s.Sound) (h : s.Honest) {event : Event}
    {todo : List Output} {next : LoopNext} (hphase : s.phase = .emitting event todo next)
    (ms : Nat) : (((s.later ms).deliver event).perform todo next).Honest := by
  apply perform_honest
  exact (h.admits hs hphase).of_state ((s.later ms).deliver_standing event).state

theorem move_honest {s : Session} (hs : s.Sound) (h : s.Honest) : s.move.Honest := by
  rcases hphase : s.phase with _ | _ | ⟨event, todo, next⟩ | _ | how
  · simp only [move, hphase]
    exact begin_honest hs hphase
  · rcases hs.parked (Or.inl hphase) with ⟨hpolling, htoken⟩ | ⟨-, htoken⟩
    · rw [move_of_fetching hphase htoken]
      exact finishFetch_later_honest hs hpolling _
    · rw [move_of_cancelled (Or.inl hphase) htoken]
      apply conclude_honest
      intro hterminal
      have hclosing := hs.closing_of_terminal hterminal
      rw [hphase] at hclosing
      cases hclosing
  · rw [move_of_emitting hphase]
    exact perform_later_honest hs h hphase _
  · have hother : s.state ≠ .terminal := by
      intro hterminal
      have hclosing := hs.closing_of_terminal hterminal
      rw [hphase] at hclosing
      cases hclosing
    by_cases htoken : s.token.isCancelled = true
    · rw [move_of_cancelled (Or.inr hphase) htoken]
      exact conclude_honest hother
    · rw [move_of_resting hphase (by simpa using htoken)]
      exact enter_later_honest (show s.Admits .fetch from hother) _
  · simp only [move, hphase]
    exact h

theorem moves_honest {s : Session} (hs : s.Sound) (h : s.Honest) (n : Nat) :
    (s.play (List.replicate n .move)).Honest := by
  induction n generalizing s with
  | zero => exact h
  | succ n ih =>
    rw [List.replicate_succ, play_cons]
    exact ih (happen_spec hs .move).1 (move_honest hs h)

/-! ## The hold on the loop -/

/-- Only a stop in the middle of the last events makes the loop's end differ from the
state, and it takes the loop out of hand. -/
def Candid (s : Session) : Prop :=
  s.Honest ∨ (s.phase = .ended .aborted ∧ s.holdsLoop = false)

theorem deliver_holdsLoop (s : Session) (e : Event) : (s.deliver e).holdsLoop = s.holdsLoop := by
  unfold deliver; split <;> rfl

theorem abort_holdsLoop (s : Session) : s.abort.holdsLoop = false := by
  unfold abort
  split
  · rfl
  · simpa using ‹¬s.holdsLoop = true›

theorem stop_holdsLoop (s : Session) (reason : String) : (s.stop reason).holdsLoop = false := by
  by_cases hfinal : s.state.isFinal = true
  · rw [stop_of_final hfinal, abort_holdsLoop]
  · rw [stop_of_live (by simpa using hfinal), deliver_holdsLoop]
    exact abort_holdsLoop _

theorem stop_candid {s : Session} (h : s.Candid) (reason : String) : (s.stop reason).Candid := by
  have hloose := s.stop_holdsLoop reason
  rcases (s.stop_stopped reason).phase with hphase | hphase
  · rcases h with hhonest | ⟨haborted, -⟩
    · left
      intro outcome hverdict
      rw [hphase] at hverdict
      have hstate := hhonest outcome hverdict
      rw [stop_state, hstate, if_pos outcome.state_isFinal]
    · exact Or.inr ⟨hphase.trans haborted, hloose⟩
  · exact Or.inr ⟨hphase, hloose⟩

theorem happen_candid {s : Session} (hs : s.Sound) (h : s.Candid) (x : Happening) :
    (s.happen x).Candid := by
  cases x with
  | clock ms => exact h
  | push entry => exact h
  | stop reason =>
    simp only [happen]
    split
    · exact h
    · exact stop_candid h reason
  | drop =>
    simp only [happen]
    split
    · exact h
    · exact stop_candid h "session dropped"
  | release =>
    simp only [happen]
    split
    · exact h
    · exact h.imp id fun hleft => ⟨hleft.1, rfl⟩
  | move =>
    rcases h with hhonest | ⟨haborted, hloose⟩
    · exact Or.inl (move_honest hs hhonest)
    · have hmove : s.move = s := by simp only [move, haborted]
      simp only [happen, hmove]
      exact Or.inr ⟨haborted, hloose⟩

theorem play_candid {s : Session} (hs : s.Sound) (h : s.Candid) (hs' : List Happening) :
    (s.play hs').Candid := by
  induction hs' generalizing s with
  | nil => exact h
  | cons x hs' ih => exact ih (happen_spec hs x).1 (happen_candid hs h x)

theorem Candid.honest_of_held {s : Session} (h : s.Candid) (hheld : s.holdsLoop = true) :
    s.Honest := by
  rcases h with hhonest | ⟨-, hloose⟩
  · exact hhonest
  · rw [hheld] at hloose
    cases hloose

end Session

end Provisioning
