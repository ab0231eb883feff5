-- Waiting for the end of a session. Who holds the loop learns how it ended, and that
-- is what the state says. Who has let go of it learns "cancelled" of every session
-- that is not terminal, also of one that polls.
import Provisioning.Proofs.Session.Verdict

namespace Provisioning

namespace Session

/-! ## What a wait tells -/

/-- Who holds the loop is told what the state says by then. -/
theorem wait_of_held {s t : Session} (hs : s.Sound) (h : s.Candid) (hheld : s.holdsLoop = true)
    {limitMs : Nat} {outcome : PollVerdict} (hwait : s.wait limitMs = (t, .ended outcome)) :
    t.state = outcome.state := by
  have hreleased : s.release.Sound := { hs with }
  obtain ⟨n, hn⟩ := exists_play_runWhile (fun s => !s.phase.isEnded) (s.now + limitMs) s.release
  have hhonest : (s.release.play (List.replicate n .move)).Honest :=
    moves_honest hreleased (h.honest_of_held hheld) n
  unfold wait at hwait
  simp only [hheld, if_true] at hwait
  rw [hn] at hwait
  split at hwait
  · cases hwait
  · simp only [Prod.mk.injEq] at hwait
    obtain ⟨rfl, hresult⟩ := hwait
    exact hhonest outcome (LoopPhase.verdict?_of_waitResult hresult)

theorem wait_of_loose {s : Session} (hloose : s.holdsLoop = false) (limitMs : Nat) :
    s.wait limitMs = (s, s.stateResult) := by
  simp [wait, hloose]

theorem pollWait_of_held {s t : Session} (h : s.Candid) (hheld : s.holdsLoop = true)
    {outcome : PollVerdict} (hwait : s.pollWait = (t, .ended outcome)) :
    t.state = outcome.state := by
  simp only [pollWait, hheld, if_true, Prod.mk.injEq] at hwait
  obtain ⟨rfl, hresult⟩ := hwait
  exact h.honest_of_held hheld outcome (LoopPhase.verdict?_of_waitResult hresult)

end Session

/-- Is this a wait for the end? -/
def SessionStep.isWait : SessionStep → Bool
  | wait _ | pollWait => true
  | _ => false

namespace Session

/-- Only a session that has not been given up can be waited for. -/
theorem act_of_wait {s t : Session} {call : SessionStep} {result : WaitResult}
    (hcall : call.isWait = true) (hact : s.act call = (t, some result)) :
    (∃ limitMs, s.wait limitMs = (t, result)) ∨ s.pollWait = (t, result) := by
  cases call with
  | wait limitMs =>
    simp only [act] at hact
    split at hact
    · cases hact
    · simp only [Prod.mk.injEq, Option.some.injEq] at hact
      exact Or.inl ⟨limitMs, Prod.ext hact.1 hact.2⟩
  | pollWait =>
    simp only [act] at hact
    split at hact
    · cases hact
    · simp only [Prod.mk.injEq, Option.some.injEq] at hact
      exact Or.inr (Prod.ext hact.1 hact.2)
  | settle => cases hcall
  | advance ms => cases hcall
  | stop reason => cases hcall
  | drop => cases hcall
  | push entry => cases hcall
  | pollWaitStop reason => cases hcall

theorem act_of_held {s t : Session} (hs : s.Sound) (h : s.Candid) (hheld : s.holdsLoop = true)
    {call : SessionStep} {outcome : PollVerdict} (hcall : call.isWait = true)
    (hact : s.act call = (t, some (.ended outcome))) : t.state = outcome.state := by
  rcases act_of_wait hcall hact with ⟨limitMs, hwait⟩ | hwait
  · exact wait_of_held hs h hheld hwait
  · exact pollWait_of_held h hheld hwait

theorem act_of_loose {s t : Session} (hloose : s.holdsLoop = false) {call : SessionStep}
    {outcome : PollVerdict} (hcall : call.isWait = true)
    (hact : s.act call = (t, some (.ended outcome))) :
    t.state = s.state ∧ outcome = if s.state = .terminal then .terminal else .cancelled := by
  rcases act_of_wait hcall hact with ⟨limitMs, hwait⟩ | hwait
  · rw [wait_of_loose hloose] at hwait
    cases hwait
    exact ⟨rfl, rfl⟩
  · simp only [pollWait, hloose, Bool.false_eq_true, if_false] at hwait
    cases hwait
    exact ⟨rfl, rfl⟩

/-- A wait that is answered by the state alone tells the truth of a session that is over. -/
theorem state_of_loose_iff (state : SessionState) :
    state = (if state = .terminal then PollVerdict.terminal else .cancelled).state ↔
      state.isFinal = true := by
  cases state <;> simp [PollVerdict.state, SessionState.isFinal]

/-- What a wait tells is what the state says if the session still had the loop in hand or
was over. Otherwise the wait says "cancelled" of a session that is not. -/
theorem act_agrees_iff {s t : Session} (hs : s.Sound) (h : s.Candid) {call : SessionStep}
    {outcome : PollVerdict} (hcall : call.isWait = true)
    (hact : s.act call = (t, some (.ended outcome))) :
    t.state = outcome.state ↔ s.holdsLoop = true ∨ s.state.isFinal = true := by
  by_cases hheld : s.holdsLoop = true
  · exact iff_of_true (act_of_held hs h hheld hcall hact) (Or.inl hheld)
  · obtain ⟨hstate, rfl⟩ := act_of_loose (by simpa using hheld) hcall hact
    rw [hstate, state_of_loose_iff, or_iff_right hheld]

/-! ## Waits one after the other -/

theorem conclude_holdsLoop (s : Session) : s.conclude.holdsLoop = s.holdsLoop := by
  have hmove : (s.moveTo .cancelled).1.holdsLoop = s.holdsLoop := by
    unfold moveTo
    split <;> rfl
  simp only [conclude]
  split
  · split
    · exact (deliver_holdsLoop _ _).trans hmove
    · exact hmove
  · exact hmove

theorem enter_holdsLoop (s : Session) (next : LoopNext) :
    (s.enter next).holdsLoop = s.holdsLoop := by
  unfold enter
  split
  · rfl
  · split
    · exact s.conclude_holdsLoop
    · simp only [beginFetch]
      split <;> rfl
  · split
    · exact s.conclude_holdsLoop
    · rfl

theorem perform_holdsLoop (s : Session) (todo : List Output) (next : LoopNext) :
    (s.perform todo next).holdsLoop = s.holdsLoop := by
  induction todo generalizing s with
  | nil => exact s.enter_holdsLoop next
  | cons o todo ih =>
    cases o with
    | say line => exact ih _
    | emit event =>
      simp only [perform]
      split
      · rw [ih, deliver_holdsLoop]
      · rfl

theorem takeResult_holdsLoop (s : Session) (result : FetchResult) :
    (s.takeResult result).holdsLoop = s.holdsLoop := by
  unfold takeResult
  split
  · exact s.conclude_holdsLoop
  · split
    · simp only [takeRecord]
      split
      · exact s.conclude_holdsLoop
      · rw [perform_holdsLoop]
        split <;> rfl
    · rw [perform_holdsLoop]

/-- The session has the loop in hand or is over: a wait will not be misled. -/
def InTouch (s : Session) : Prop := s.holdsLoop = true ∨ s.state.isFinal = true

/-- The loop takes itself out of hand only by a stop at the end of a fetch. -/
theorem finishFetch_inTouch {s : Session} (h : s.holdsLoop = true) : s.finishFetch.InTouch := by
  rcases hi : s.source.incident? with _ | ⟨reason⟩ | _
  · rw [finishFetch_of_answer hi, InTouch, takeResult_holdsLoop]
    exact Or.inl h
  · have hfinal := s.answered.stop_isFinal reason
    rw [finishFetch_of_stop hi, takeResult_of_cancelled (s.answered.stop_stopped reason).token,
      InTouch, (conclude_standing hfinal).state]
    exact Or.inr hfinal
  · rw [finishFetch_of_crash hi]
    exact Or.inl h

theorem begin_holdsLoop (s : Session) : s.begin.holdsLoop = s.holdsLoop := by
  unfold begin
  split
  · exact s.conclude_holdsLoop
  · rw [perform_holdsLoop]
    unfold moveTo
    split <;> rfl

theorem finishFetch_later_inTouch {s : Session} (h : s.holdsLoop = true) (ms : Nat) :
    (s.later ms).finishFetch.InTouch :=
  finishFetch_inTouch (s := s.later ms) h

theorem enter_later_holdsLoop (s : Session) (next : LoopNext) (ms : Nat) :
    ((s.later ms).enter next).holdsLoop = s.holdsLoop :=
  (s.later ms).enter_holdsLoop next

theorem perform_later_holdsLoop (s : Session) (event : Event) (todo : List Output)
    (next : LoopNext) (ms : Nat) :
    (((s.later ms).deliver event).perform todo next).holdsLoop = s.holdsLoop := by
  rw [perform_holdsLoop, deliver_holdsLoop]
  rfl

theorem move_inTouch {s : Session} (hs : s.Sound) (h : s.InTouch) : s.move.InTouch := by
  rcases h with hheld | hfinal
  · rcases hphase : s.phase with _ | _ | ⟨event, todo, next⟩ | _ | how
    · simp only [move, hphase, InTouch, begin_holdsLoop]
      exact Or.inl hheld
    · by_cases htoken : s.token.isCancelled = true
      · rw [move_of_cancelled (Or.inl hphase) htoken, InTouch, conclude_holdsLoop]
        exact Or.inl hheld
      · rw [move_of_fetching hphase (by simpa using htoken)]
        exact finishFetch_later_inTouch hheld _
    · rw [move_of_emitting hphase, InTouch, perform_later_holdsLoop]
      exact Or.inl hheld
    · by_cases htoken : s.token.isCancelled = true
      · rw [move_of_cancelled (Or.inr hphase) htoken, InTouch, conclude_holdsLoop]
        exact Or.inl hheld
      · rw [move_of_resting hphase (by simpa using htoken), InTouch, enter_later_holdsLoop]
        exact Or.inl hheld
    · simp only [move, hphase]
      exact Or.inl hheld
  · right
    rw [show s.move.state = s.state from (happen_of_final hs hfinal .move).1]
    exact hfinal

theorem moves_inTouch {s : Session} (hs : s.Sound) (h : s.InTouch) (n : Nat) :
    (s.play (List.replicate n .move)).InTouch := by
  induction n generalizing s with
  | zero => exact h
  | succ n ih =>
    rw [List.replicate_succ, play_cons]
    exact ih (happen_spec hs .move).1 (move_inTouch hs h)

/-- What is done to a session leaves it in touch, unless it is a wait without an outcome. -/
theorem act_inTouch {s : Session} (hs : s.Sound) (hc : s.Candid) (h : s.InTouch)
    (step : SessionStep) (hended : ∀ r ∈ (s.act step).2, ∃ outcome, r = .ended outcome) :
    (s.act step).1.InTouch := by
  have hwait : step.isWait = true → (s.act step).1.InTouch := by
    intro hcall
    rcases hact : s.act step with ⟨t, _ | r⟩
    · have hd : t = s := by
        cases step <;> simp only [SessionStep.isWait, Bool.false_eq_true] at hcall
        all_goals
          simp only [act] at hact
          split at hact
          · exact (Prod.ext_iff.mp hact).1.symm
          · exact absurd (Prod.ext_iff.mp hact).2 (by simp)
      exact hd ▸ h
    · rw [hact] at hended
      obtain ⟨outcome, rfl⟩ := hended r rfl
      have hstate := (act_agrees_iff hs hc hcall hact).mpr h
      exact Or.inr (by rw [hstate]; exact outcome.state_isFinal)
  cases step with
  | settle => exact h
  | advance ms => exact h
  | push entry => exact h
  | wait limitMs => exact hwait rfl
  | pollWait => exact hwait rfl
  | stop reason =>
    simp only [act]
    split
    · exact h
    · exact Or.inr (s.stop_isFinal reason)
  | drop =>
    simp only [act]
    split
    · exact h
    · exact Or.inr (s.stop_isFinal _)
  | pollWaitStop reason =>
    simp only [act]
    split
    · exact h
    · exact Or.inr (stop_isFinal _ reason)

/-- What the waits of a run tell, in order. -/
def answers (s : Session) : List SessionStep → List WaitResult
  | [] => []
  | step :: steps => (s.step step).2.toList ++ (s.step step).1.answers steps

theorem run_inTouch {s : Session} (hs : s.Sound) (hc : s.Candid) (h : s.InTouch)
    (steps : List SessionStep) (hended : ∀ r ∈ s.answers steps, ∃ outcome, r = .ended outcome) :
    (s.run steps).InTouch := by
  induction steps generalizing s with
  | nil => exact h
  | cons step steps ih =>
    have hresult : (s.step step).2 = (s.act step).2 := rfl
    have hact : (s.act step).1.InTouch := by
      apply act_inTouch hs hc h
      intro r hr
      apply hended
      rw [answers, hresult]
      exact List.mem_append_left _ (Option.mem_toList.mpr hr)
    obtain ⟨hs', he⟩ := s.exists_play_act step
    obtain ⟨n, hn⟩ := exists_play_runWhile (fun _ => true) ((s.act step).1.now + 1) (s.act step).1
    have hsettled : (s.step step).1 = (s.play hs').play (List.replicate n .move) := by
      rw [← he]
      exact hn
    have htouch : (s.step step).1.InTouch := by
      rw [hsettled, ← he]
      apply moves_inTouch _ hact
      rw [he]
      exact play_sound hs hs'
    apply ih _ _ htouch
    · intro r hr
      apply hended
      rw [answers]
      exact List.mem_append_right _ hr
    · rw [hsettled]
      exact play_sound (play_sound hs hs') _
    · rw [hsettled]
      exact play_candid (play_sound hs hs') (play_candid hs hc hs') _

/-! ## The law -/

/-- Whatever has happened, a wait that comes to an outcome says "terminal" just when the
session is terminal. It says what the state says just when the session had its loop in hand
or was over; and so does every wait of a run in which each wait before it came to an
outcome. What misleads is a wait that was left, ran out of time or failed: it takes the
loop out of hand, and then "cancelled" is said also of a session that polls. -/
theorem wait_tells_the_state_unless_one_was_left {config : Config}
    (hvalid : config.validate = .ok config) (id appId : String) (source : Playback)
    (navigator : Navigator) (sink : SinkKind) (timeText : Nat → String) :
    ∃ s₀, Session.start id appId config source navigator sink timeText = .ok s₀ ∧
      (∀ (hs : List Happening) (call : SessionStep) (t : Session) (outcome : PollVerdict),
        call.isWait = true → (s₀.play hs).act call = (t, some (.ended outcome)) →
        (outcome = .terminal ↔ t.state = .terminal) ∧
        (t.state = outcome.state ↔
          (s₀.play hs).holdsLoop = true ∨ (s₀.play hs).state.isFinal = true)) ∧
      ∀ (steps : List SessionStep) (call : SessionStep) (t : Session) (outcome : PollVerdict),
        (∀ r ∈ s₀.answers steps, ∃ earlier, r = .ended earlier) → call.isWait = true →
        (s₀.run steps).act call = (t, some (.ended outcome)) → t.state = outcome.state := by
  obtain ⟨s₀, hstart, hs₀⟩ := exists_started hvalid id appId source navigator sink timeText
  have hsound := hs₀.toSound
  have hcandid : s₀.Candid := Or.inl (Honest.of_silent (by rw [hs₀.phase]; rfl))
  refine ⟨s₀, hstart, ?_, ?_⟩
  · intro hs call t outcome hcall hact
    have hplayed := play_sound hsound hs
    have hc := play_candid hsound hcandid hs
    refine ⟨?_, act_agrees_iff hplayed hc hcall hact⟩
    by_cases hheld : (s₀.play hs).holdsLoop = true
    · rw [act_of_held hplayed hc hheld hcall hact, PollVerdict.state_eq_terminal]
    · obtain ⟨hstate, rfl⟩ := act_of_loose (by simpa using hheld) hcall hact
      rw [hstate]
      split <;> simp [*]
  · intro steps call t outcome hended hcall hact
    have htouch : s₀.InTouch := by
      left
      rw [start_of_validate hvalid] at hstart
      cases hstart
      rfl
    have hrun := run_inTouch hsound hcandid htouch steps hended
    obtain ⟨hs, he⟩ := s₀.exists_play_run steps
    rw [he] at hrun hact
    exact (act_agrees_iff (play_sound hsound hs) (play_candid hsound hcandid hs) hcall hact).mpr hrun

/-- A terminal session says so. After a wait that was left, a session in the middle of a
fetch says that it is cancelled. -/
theorem wait_of_a_terminal_session_and_of_one_left :
    ∃ s₀, Session.start "s1" "a1" Config.standard
        { script := [.ok (.reporting "a1" "environment_vars" "finished")] } .detached
        .discarding (fun _ => "") = .ok s₀ ∧
      ((s₀.play [.move, .move]).act .pollWait).1.state = .terminal ∧
      ((s₀.play [.move, .release]).act (.wait 10)).1.state ≠ .cancelled ∧
      ((s₀.run [.stop "closed"]).act .pollWait).1.state = .cancelled := by
  obtain ⟨s₀, hstart, hlaw, hrun⟩ := wait_tells_the_state_unless_one_was_left
    Config.standard_validate "s1" "a1"
    { script := [.ok (.reporting "a1" "environment_vars" "finished")] } .detached .discarding
    (fun _ => "")
  have hs₀ := hstart
  rw [start_of_validate Config.standard_validate] at hs₀
  have hheld : (s₀.play [.move, .move]).holdsLoop = true := by
    cases hs₀
    rfl
  have hended : ((s₀.play [.move, .move]).act .pollWait).2 = some (.ended .terminal) := by
    cases hs₀
    rfl
  have hleft : ((s₀.play [.move, .release]).act (.wait 10)).2 = some (.ended .cancelled) := by
    cases hs₀
    rfl
  have hloose : (s₀.play [.move, .release]).holdsLoop = false := by
    cases hs₀
    rfl
  have hpolls : (s₀.play [.move, .release]).state = .polling := by
    cases hs₀
    rfl
  have hstopped : s₀.run [.stop "closed"] = s₀.stop "closed" := by
    cases hs₀
    simp only [run, List.foldl, step, act, settle]
    rw [runWhile_of_late (by rintro due ⟨⟩)]
    rfl
  have hsaid : ((s₀.run [.stop "closed"]).act .pollWait).2 = some (.ended .cancelled) := by
    rw [hstopped]
    cases hs₀
    rfl
  refine ⟨s₀, hstart, ?_, ?_, ?_⟩
  · exact (hlaw _ .pollWait _ _ rfl (Prod.ext rfl hended)).2.mpr (Or.inl hheld)
  · intro hstate
    have htold := (hlaw _ (.wait 10) _ _ rfl (Prod.ext rfl hleft)).2.mp hstate
    rw [hloose, hpolls] at htold
    rcases htold with hheld | hfinal
    · cases hheld
    · cases hfinal
  · exact hrun [.stop "closed"] .pollWait _ _ (by simp [answers, step, act]) rfl
      (Prod.ext rfl hsaid)

/-- After a wait that was left, another one says "cancelled" of a session that polls. -/
theorem wait_says_cancelled_of_a_session_that_polls :
    ¬ ∀ (config : Config), config.validate = .ok config →
      ∀ (id appId : String) (source : Playback) (navigator : Navigator) (sink : SinkKind)
        (timeText : Nat → String) (s₀ : Session),
        Session.start id appId config source navigator sink timeText = .ok s₀ →
        ∀ steps call t outcome, call.isWait = true →
          (s₀.run steps).act call = (t, some (.ended outcome)) → t.state = outcome.state := by
  intro hclaim
  have hstart := start_of_validate Config.standard_validate "s1" "a1"
    { latencyMs := fun _ => 1000 } .detached .discarding (fun _ => "")
  have h := hclaim _ Config.standard_validate _ _ _ _ _ _ _ hstart [.pollWait] .pollWait
  generalize hs : fresh _ _ _ = s₀ at h
  have hleft : s₀.run [.pollWait] = s₀.release.play [.move] := by
    subst hs
    simp only [run, List.foldl, step, act, settle]
    rw [runWhile_of_due 0 rfl (by decide), runWhile_of_late (by rintro due ⟨⟩; decide)]
    rfl
  have hsaid : ((s₀.release.play [.move]).act .pollWait).2 = some (.ended .cancelled) := by
    subst hs
    rfl
  have hpolls : ((s₀.release.play [.move]).act .pollWait).1.state = .polling := by
    subst hs
    rfl
  rw [hleft] at h
  rw [h _ _ rfl (Prod.ext rfl hsaid)] at hpolls
  cases hpolls

end Session

end Provisioning
