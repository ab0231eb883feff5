-- What one thing can do to a session. Whatever happens, it is one of six: the
-- loop begins, a fetch fails, a record comes, the terminal record comes, a stop
-- ends the session, or nothing of the sort. Every law of a session's state,
-- snapshot and navigation follows from that.
import Provisioning.Config.Basic
import Provisioning.Proofs.Session.Occurrence
import Provisioning.Proofs.Session.Sound

namespace Provisioning

namespace Session

/-- What one thing does to the state, the snapshot and the latch, by what it means. -/
inductive Effect (s t : Session) : Option Occurrence → Prop
  | quiet (state : t.state = s.state) (latest : t.latest = s.latest) (latch : t.latch = s.latch) :
      Effect s t none
  | began (idle : s.state = .idle) (state : t.state = .polling) (latest : t.latest = s.latest)
      (latch : t.latch = s.latch) : Effect s t (some .began)
  | failed (e : FetchError) (polling : s.state = .polling) (state : t.state = .polling)
      (latest : t.latest = s.latest) (latch : t.latch = s.latch) :
      Effect s t (some (.arrived (.error e)))
  | progressed (a : Application) (time : String) (polling : s.state = .polling)
      (terminal : (a.state s.config).any s.config.isTerminal = false) (state : t.state = .polling)
      (latest : t.latest = s.latest.next s.config a time) (latch : t.latch = s.latch) :
      Effect s t (some (.arrived (.ok a)))
  | reached (a : Application) (time : String) (polling : s.state = .polling)
      (terminal : (a.state s.config).any s.config.isTerminal = true) (state : t.state = .terminal)
      (latest : t.latest = s.latest.next s.config a time)
      (latch : t.latch = (s.latch.fire s.appId).1) : Effect s t (some (.arrived (.ok a)))
  | stopped (reason : String) (live : s.state.isFinal = false) (state : t.state = .cancelled)
      (latest : t.latest = s.latest) (latch : t.latch = s.latch) :
      Effect s t (some (.stopped reason))

/-- A stop of a session that is over changes nothing that it has brought about, and
one of a session that is not over ends it. -/
theorem stop_effect {s t : Session} {reason : String}
    (hstate : t.state = (s.stop reason).state) (hlatest : t.latest = (s.stop reason).latest)
    (hlatch : t.latch = (s.stop reason).latch) :
    Effect s t (if s.state.isFinal then none else some (.stopped reason)) := by
  have hstop := s.stop_stopped reason
  rw [stop_state] at hstate
  rw [hstop.latest] at hlatest
  rw [hstop.latch] at hlatch
  split at hstate
  · rename_i hfinal
    rw [if_pos hfinal]
    exact .quiet hstate hlatest hlatch
  · rename_i hfinal
    rw [if_neg hfinal]
    exact .stopped reason (by simpa using hfinal) hstate hlatest hlatch

/-! ## The loop's moves -/

theorem Effect.of_standing {s s' t : Session} {o : Option Occurrence} (h : SameStanding s s')
    (hplan : s'.plan = s.plan) (he : Effect s' t o) : Effect s t o := by
  have hconfig : s'.config = s.config := congrArg SessionPlan.config hplan
  have happ : s'.appId = s.appId := congrArg SessionPlan.appId hplan
  cases he with
  | quiet state latest latch =>
    exact .quiet (state.trans h.state) (latest.trans h.latest) (latch.trans h.latch)
  | began idle state latest latch =>
    exact .began (h.state ▸ idle) state (latest.trans h.latest) (latch.trans h.latch)
  | failed e polling state latest latch =>
    exact .failed e (h.state ▸ polling) state (latest.trans h.latest) (latch.trans h.latch)
  | progressed a time polling terminal state latest latch =>
    rw [hconfig] at terminal latest
    rw [h.latest] at latest
    exact .progressed a time (h.state ▸ polling) terminal state latest (latch.trans h.latch)
  | reached a time polling terminal state latest latch =>
    rw [hconfig] at terminal latest
    rw [h.latest] at latest
    rw [happ, h.latch] at latch
    exact .reached a time (h.state ▸ polling) terminal state latest latch
  | stopped reason live state latest latch =>
    exact .stopped reason (h.state ▸ live) state (latest.trans h.latest) (latch.trans h.latch)

theorem Effect.of_same {s t : Session} (h : SameStanding s t) : Effect s t none :=
  .quiet h.state h.latest h.latch

/-- The session once its loop runs. -/
def running (s : Session) : Session := { s with state := .polling }

theorem running_steady {s : Session} (hs : s.Steady) (hidle : s.state = .idle) :
    s.running.Steady := by
  have htoken := hs.token_of_live (by rw [hidle]; rfl)
  refine ⟨?_, ?_, ?_, ?_⟩
  · intro hc
    exact absurd hc (by simp [running, htoken])
  · intro hc
    cases hc
  · constructor
    · intro hf
      rw [hs.fired_iff.mp hf] at hidle
      cases hidle
    · intro hc
      cases hc
  · intro hd
    have hfinal := hs.final_of_dropped hd
    rw [hidle] at hfinal
    cases hfinal

theorem Sound.idle_of_ready {s : Session} (hs : s.Sound) (hready : s.phase = .ready)
    (hlive : s.state.isFinal = false) : s.state = .idle := by
  rcases hs.unrun_of_ready hready with h | h
  · exact h
  · rw [h] at hlive
    cases hlive

theorem begin_of_idle {s : Session} (hs : s.Steady) (hidle : s.state = .idle) :
    s.begin = s.running.perform [.emit (.started s.plan.id s.appId)] .fetch := by
  have htoken := hs.token_of_live (by rw [hidle]; rfl)
  unfold begin
  rw [if_neg (by simp [htoken])]
  simp [moveTo, hidle, SessionState.isFinal, running]

/-- A loop that runs for the first time after a stop comes to its end. -/
theorem begin_of_final {s : Session} (hs : s.Sound) (hready : s.phase = .ready)
    (hfinal : s.state.isFinal = true) : s.begin = s.conclude := by
  have hcancelled : s.state = .cancelled := by
    rcases hs.unrun_of_ready hready with h | h
    · rw [h] at hfinal
      cases hfinal
    · exact h
  unfold begin
  rw [if_pos (hs.cancelled_of_state hcancelled)]

theorem begin_spec {s : Session} (hs : s.Sound) (hready : s.phase = .ready) :
    s.begin.Sound ∧ Effect s s.begin (if s.state.isFinal then none else some .began) := by
  by_cases hfinal : s.state.isFinal = true
  · rw [begin_of_final hs hready hfinal, if_pos hfinal]
    exact ⟨conclude_sound hs.toSteady hfinal, .of_same (conclude_standing hfinal)⟩
  · have hidle := hs.idle_of_ready hready (by simpa using hfinal)
    have hsteady := running_steady hs.toSteady hidle
    rw [begin_of_idle hs.toSteady hidle, if_neg hfinal]
    have hsame := perform_standing hsteady [.emit (.started s.plan.id s.appId)] .fetch
    exact ⟨perform_sound hsteady (by simp [running]) _ (by simp [running]),
      .began hidle hsame.state hsame.latest hsame.latch⟩

/-- The session with a snapshot of a record. -/
def published (s : Session) (a : Application) : Session :=
  { s with latest := s.latest.next s.config a (s.plan.timeText s.since) }

/-- The session at its end, with the user sent on. -/
def finished (s : Session) : Session := ({ s with state := .terminal } : Session).navigate.1

/-- The session after its source gave an answer. -/
def answered (s : Session) : Session := { s with source := (s.source.answer s.appId).1 }

/-- What a record brings out when it does not end provisioning, and when it does. -/
def recordOutputsOf (s : Session) (a : Application) (isTerminal : Bool) : List Output :=
  recordOutputs s.appId (a.state s.config) ((a.state s.config).bind s.config.stateLevel)
    (.ofNat s.source.delayMs) isTerminal (if isTerminal then some (.view s.appId) else none)

/-- A record that does not end provisioning is made known, and the loop rests. -/
theorem takeRecord_of_progress {s : Session} {a : Application} (hlive : s.state.isFinal = false)
    (hother : (a.state s.config).any s.config.isTerminal = false) :
    s.takeRecord a = (s.published a).perform (s.recordOutputsOf a false) .rest := by
  simp only [takeRecord, hlive, Snapshot.next, hother, Bool.false_eq_true, if_false]
  rfl

/-- A terminal record is made known with its route, and the loop ends. -/
theorem takeRecord_of_terminal {s : Session} {a : Application} (hlive : s.state.isFinal = false)
    (hunfired : s.latch.hasFired = false)
    (hterminal : (a.state s.config).any s.config.isTerminal = true) :
    s.takeRecord a =
      (s.published a).finished.perform (s.recordOutputsOf a true) (.finish .terminal) := by
  have hroute : (s.latch.fire s.appId).2.1 = some (.view s.appId) := by
    simp [NavigationLatch.fire, hunfired]
  simp only [takeRecord, hlive, Snapshot.next, hterminal, Bool.false_eq_true, if_false, if_true,
    recordOutputsOf, ← hroute]
  rfl

theorem finishFetch_of_answer {s : Session} (h : s.source.incident? = none) :
    s.finishFetch = s.answered.takeResult (s.source.answer s.appId).2 := by
  simp only [finishFetch, h]
  rfl

theorem finishFetch_of_stop {s : Session} {reason : String}
    (h : s.source.incident? = some (.stop reason)) :
    s.finishFetch = (s.answered.stop reason).takeResult (s.source.answer s.appId).2 := by
  simp only [finishFetch, h]
  rfl

theorem finishFetch_of_crash {s : Session} (h : s.source.incident? = some .crash) :
    s.finishFetch = { s.answered with phase := .ended .crashed } := by
  simp only [finishFetch, h]
  rfl

theorem Steady.unfired_of_polling {s : Session} (hs : s.Steady) (hpolling : s.state = .polling) :
    s.latch.hasFired = false := by
  by_contra hf
  have hterminal := hs.fired_iff.mp (by simpa using hf)
  rw [hpolling] at hterminal
  cases hterminal

theorem published_steady {s : Session} (hs : s.Steady) (a : Application) :
    (s.published a).Steady :=
  ⟨hs.final_of_cancelled, hs.cancelled_of_state, hs.fired_iff, hs.final_of_dropped⟩

theorem finished_steady (s : Session) : s.finished.Steady where
  final_of_cancelled := fun _ => rfl
  cancelled_of_state := by
    intro h
    cases h
  fired_iff := by
    simp only [finished, navigate, NavigationLatch.fire, iff_true]
    split
    · assumption
    · rfl
  final_of_dropped := fun _ => rfl

theorem takeRecord_spec {s : Session} (hs : s.Steady) (hpolling : s.state = .polling)
    (a : Application) :
    (s.takeRecord a).Sound ∧ Effect s (s.takeRecord a) (some (.arrived (.ok a))) := by
  have hlive : s.state.isFinal = false := by rw [hpolling]; rfl
  by_cases hterminal : (a.state s.config).any s.config.isTerminal = true
  · rw [takeRecord_of_terminal hlive (hs.unfired_of_polling hpolling) hterminal]
    have hsteady := finished_steady (s.published a)
    have hsame := perform_standing hsteady (s.recordOutputsOf a true) (.finish .terminal)
    exact ⟨perform_sound hsteady (by simp [finished, navigate]) _ (fun _ => ⟨_, rfl⟩),
      .reached a (s.plan.timeText s.since) hpolling hterminal hsame.state hsame.latest hsame.latch⟩
  · have hother : (a.state s.config).any s.config.isTerminal = false := by simpa using hterminal
    rw [takeRecord_of_progress hlive hother]
    have hsteady := published_steady hs a
    have hsame := perform_standing hsteady (s.recordOutputsOf a false) .rest
    have hstate : (s.published a).state = .polling := hpolling
    exact ⟨perform_sound hsteady (by simp [hstate]) _ (by simp [hstate]),
      .progressed a (s.plan.timeText s.since) hpolling hother (hsame.state.trans hstate)
        hsame.latest hsame.latch⟩

theorem takeResult_spec {s : Session} (hs : s.Steady) (hpolling : s.state = .polling)
    (result : FetchResult) :
    (s.takeResult result).Sound ∧ Effect s (s.takeResult result) (some (.arrived result)) := by
  have htoken := hs.token_of_live (by rw [hpolling]; rfl)
  unfold takeResult
  rw [if_neg (by simp [htoken])]
  cases result with
  | ok a => exact takeRecord_spec hs hpolling a
  | error e =>
    have hsame := perform_standing hs (failureOutputs s.appId e) .rest
    exact ⟨perform_sound hs (by simp [hpolling]) _ (by simp [hpolling]),
      .failed e hpolling (hsame.state.trans hpolling) hsame.latest hsame.latch⟩

theorem takeResult_of_cancelled {s : Session} (hc : s.token.isCancelled = true)
    (result : FetchResult) : s.takeResult result = s.conclude := by
  unfold takeResult
  rw [if_pos hc]

theorem finishFetch_spec {s : Session} (hs : s.Sound) (hpolling : s.state = .polling) :
    s.finishFetch.Sound ∧ Effect s s.finishFetch s.fetchOccurrence? := by
  have hsame : SameStanding s s.answered := ⟨rfl, rfl, rfl, rfl, rfl⟩
  have hsteady : s.answered.Steady := hsame.steady hs.toSteady
  have hstate : s.answered.state = .polling := hpolling
  rcases hi : s.source.incident? with _ | ⟨reason⟩ | _
  · rw [finishFetch_of_answer hi]
    have h := takeResult_spec hsteady hstate (s.source.answer s.appId).2
    simp only [fetchOccurrence?, hi]
    exact ⟨h.1, h.2.of_standing hsame rfl⟩
  · have hfinal := s.answered.stop_isFinal reason
    have hconclude := conclude_standing hfinal
    rw [finishFetch_of_stop hi, takeResult_of_cancelled (s.answered.stop_stopped reason).token]
    simp only [fetchOccurrence?, hi]
    refine ⟨conclude_sound (stop_steady hsteady reason) hfinal, Effect.of_standing hsame rfl ?_⟩
    have h := stop_effect hconclude.state hconclude.latest hconclude.latch
    rwa [if_neg (by simp [hstate, SessionState.isFinal])] at h
  · rw [finishFetch_of_crash hi]
    simp only [fetchOccurrence?, hi]
    refine ⟨?_, .of_same ⟨rfl, rfl, rfl, rfl, rfl⟩⟩
    refine { hsteady with ready_of_idle := ?_, unrun_of_ready := ?_, closing_of_terminal := ?_ }
    · intro h
      rw [hstate] at h
      cases h
    · intro h
      cases h
    · intro _
      rfl

/-- In the middle of a fetch or of a rest the session polls, unless it has been stopped and
the token says so. -/
theorem Sound.parked {s : Session} (hs : s.Sound)
    (hphase : s.phase = .fetching ∨ s.phase = .resting) :
    (s.state = .polling ∧ s.token.isCancelled = false) ∨
      (s.state.isFinal = true ∧ s.token.isCancelled = true) := by
  cases hstate : s.state with
  | idle =>
    rw [hs.ready_of_idle hstate] at hphase
    simp at hphase
  | polling => exact Or.inl ⟨rfl, hs.token_of_live (by rw [hstate]; rfl)⟩
  | terminal =>
    have hclosing := hs.closing_of_terminal hstate
    rcases hphase with hphase | hphase
    · rw [hphase] at hclosing
      cases hclosing
    · rw [hphase] at hclosing
      cases hclosing
  | cancelled => exact Or.inr ⟨rfl, hs.cancelled_of_state hstate⟩

/-- In a terminal session, the loop comes to its end after what it makes known. -/
theorem Sound.finish_of_emitting {s : Session} (hs : s.Sound) (hterminal : s.state = .terminal)
    {event : Event} {todo : List Output} {next : LoopNext}
    (hphase : s.phase = .emitting event todo next) : ∃ outcome, next = .finish outcome := by
  have hclosing := hs.closing_of_terminal hterminal
  rw [hphase] at hclosing
  cases next with
  | fetch => cases hclosing
  | rest => cases hclosing
  | finish outcome => exact ⟨outcome, rfl⟩

theorem conclude_spec {s : Session} (hs : s.Sound) (hfinal : s.state.isFinal = true)
    (o : Option Occurrence) :
    s.conclude.Sound ∧ Effect s s.conclude (if s.state.isFinal then none else o) := by
  rw [if_pos hfinal]
  exact ⟨conclude_sound hs.toSteady hfinal, .of_same (conclude_standing hfinal)⟩

theorem move_of_fetching {s : Session} (hphase : s.phase = .fetching)
    (htoken : s.token.isCancelled = false) :
    s.move = (s.later s.source.delayMs).finishFetch := by
  simp [move, hphase, htoken]

theorem move_of_resting {s : Session} (hphase : s.phase = .resting)
    (htoken : s.token.isCancelled = false) : s.move = (s.later s.plan.restMs).enter .fetch := by
  simp [move, hphase, htoken]

theorem move_of_emitting {s : Session} {event : Event} {todo : List Output} {next : LoopNext}
    (hphase : s.phase = .emitting event todo next) :
    s.move = ((s.later s.plan.sink.delayMs).deliver event).perform todo next := by
  simp [move, hphase]

/-- A cancelled token ends a fetch and a rest. -/
theorem move_of_cancelled {s : Session} (hphase : s.phase = .fetching ∨ s.phase = .resting)
    (htoken : s.token.isCancelled = true) : s.move = s.conclude := by
  rcases hphase with hphase | hphase <;> simp [move, hphase, htoken]

-- How long a phase takes is a variable in the next three lemmas: with the length
-- that the plan gives, a check of types would go on to compute it.

theorem finishFetch_later_spec {s : Session} (hs : s.Sound) (hpolling : s.state = .polling)
    (ms : Nat) :
    (s.later ms).finishFetch.Sound ∧ Effect s (s.later ms).finishFetch s.fetchOccurrence? := by
  have h := finishFetch_spec (later_sound hs ms) hpolling
  exact ⟨h.1, h.2.of_standing (s.later_standing ms) rfl⟩

theorem enter_later_spec {s : Session} (hs : s.Sound) (hpolling : s.state = .polling) (ms : Nat) :
    ((s.later ms).enter .fetch).Sound ∧ Effect s ((s.later ms).enter .fetch) none := by
  have hlater := later_sound hs ms
  have hstate : (s.later ms).state = .polling := hpolling
  exact ⟨perform_sound hlater.toSteady (by simp [hstate]) [] (by simp [hstate]),
    .of_same ((s.later_standing ms).trans (enter_standing hlater.toSteady .fetch))⟩

theorem perform_later_spec {s : Session} {event : Event} {todo : List Output} {next : LoopNext}
    (hs : s.Sound) (hphase : s.phase = .emitting event todo next) (ms : Nat) :
    (((s.later ms).deliver event).perform todo next).Sound ∧
      Effect s (((s.later ms).deliver event).perform todo next) none := by
  have hlater := later_sound hs ms
  have hdelivered := (s.later ms).deliver_standing event
  have hsteady := hdelivered.steady hlater.toSteady
  have hstate : ((s.later ms).deliver event).state = s.state := hdelivered.state
  refine ⟨perform_sound hsteady ?_ todo ?_, .of_same (((s.later_standing ms).trans hdelivered).trans
    (perform_standing hsteady todo next))⟩
  · intro hidle
    have hready := hs.ready_of_idle (hstate.symm.trans hidle)
    rw [hphase] at hready
    cases hready
  · intro hterminal
    exact hs.finish_of_emitting (hstate.symm.trans hterminal) hphase

theorem move_spec_of_fetching {s : Session} (hs : s.Sound) (hphase : s.phase = .fetching) :
    s.move.Sound ∧ Effect s s.move (if s.state.isFinal then none else s.fetchOccurrence?) := by
  rcases hs.parked (Or.inl hphase) with ⟨hpolling, htoken⟩ | ⟨hfinal, htoken⟩
  · rw [move_of_fetching hphase htoken, if_neg (by simp [hpolling, SessionState.isFinal])]
    exact finishFetch_later_spec hs hpolling _
  · rw [move_of_cancelled (Or.inl hphase) htoken]
    exact conclude_spec hs hfinal _

theorem move_spec_of_resting {s : Session} (hs : s.Sound) (hphase : s.phase = .resting) :
    s.move.Sound ∧ Effect s s.move none := by
  rcases hs.parked (Or.inr hphase) with ⟨hpolling, htoken⟩ | ⟨hfinal, htoken⟩
  · rw [move_of_resting hphase htoken]
    exact enter_later_spec hs hpolling _
  · rw [move_of_cancelled (Or.inr hphase) htoken]
    have h := conclude_spec hs hfinal none
    rwa [ite_self] at h

theorem move_spec_of_emitting {s : Session} {event : Event} {todo : List Output} {next : LoopNext}
    (hs : s.Sound) (hphase : s.phase = .emitting event todo next) :
    s.move.Sound ∧ Effect s s.move none := by
  rw [move_of_emitting hphase]
  exact perform_later_spec hs hphase _

/-- One move of the loop keeps a session sound and does what it means. -/
theorem move_spec {s : Session} (hs : s.Sound) :
    s.move.Sound ∧ Effect s s.move (if s.state.isFinal then none else s.moveOccurrence?) := by
  rcases hphase : s.phase with _ | _ | ⟨event, todo, next⟩ | _ | how
  · simp only [move, moveOccurrence?, hphase]
    exact begin_spec hs hphase
  · simp only [moveOccurrence?, hphase]
    exact move_spec_of_fetching hs hphase
  · simp only [moveOccurrence?, hphase, ite_self]
    exact move_spec_of_emitting hs hphase
  · simp only [moveOccurrence?, hphase, ite_self]
    exact move_spec_of_resting hs hphase
  · simp only [move, moveOccurrence?, hphase, ite_self]
    exact ⟨hs, .of_same (.refl s)⟩

/-! ## Whatever happens -/

theorem stop_spec {s : Session} (hs : s.Sound) (reason : String) :
    (s.stop reason).Sound ∧
      Effect s (s.stop reason) (if s.state.isFinal then none else some (.stopped reason)) :=
  ⟨stop_sound hs reason, stop_effect rfl rfl rfl⟩

theorem drop_spec {s : Session} (hs : s.Sound) :
    s.drop.Sound ∧
      Effect s s.drop (if s.state.isFinal then none else some (.stopped "session dropped")) :=
  ⟨drop_sound hs, stop_effect rfl rfl rfl⟩

/-- Whatever happens keeps a session sound, and does to it what it means. -/
theorem happen_spec {s : Session} (hs : s.Sound) (h : Happening) :
    (s.happen h).Sound ∧ Effect s (s.happen h) (s.occurrence? h) := by
  cases h with
  | clock ms =>
    simp only [occurrence?, ite_self]
    exact ⟨{ hs with }, .quiet rfl rfl rfl⟩
  | push entry =>
    simp only [occurrence?, ite_self]
    exact ⟨{ hs with }, .quiet rfl rfl rfl⟩
  | release =>
    simp only [occurrence?, ite_self, happen]
    split
    · exact ⟨hs, .quiet rfl rfl rfl⟩
    · exact ⟨{ hs with }, .quiet rfl rfl rfl⟩
  | move => exact move_spec hs
  | stop reason =>
    simp only [happen, occurrence?]
    by_cases hd : s.isDropped = true
    · rw [if_pos hd, if_pos (hs.final_of_dropped hd)]
      exact ⟨hs, .of_same (.refl s)⟩
    · rw [if_neg hd]
      exact stop_spec hs reason
  | drop =>
    simp only [happen, occurrence?]
    by_cases hd : s.isDropped = true
    · rw [if_pos hd, if_pos (hs.final_of_dropped hd)]
      exact ⟨hs, .of_same (.refl s)⟩
    · rw [if_neg hd]
      exact drop_spec hs

theorem occurrence?_of_final {s : Session} (hfinal : s.state.isFinal = true) (h : Happening) :
    s.occurrence? h = none := by
  unfold occurrence?
  rw [if_pos hfinal]

/-- A session that is over keeps its state, its snapshot and its latch. -/
theorem happen_of_final {s : Session} (hs : s.Sound) (hfinal : s.state.isFinal = true)
    (h : Happening) : (s.happen h).state = s.state ∧ (s.happen h).latest = s.latest ∧
      (s.happen h).latch = s.latch := by
  have he := (happen_spec hs h).2
  rw [occurrence?_of_final hfinal h] at he
  cases he with
  | quiet state latest latch => exact ⟨state, latest, latch⟩

theorem play_of_final {s : Session} (hs : s.Sound) (hfinal : s.state.isFinal = true)
    (more : List Happening) : (s.play more).state = s.state ∧ (s.play more).latest = s.latest ∧
      (s.play more).latch = s.latch := by
  induction more generalizing s with
  | nil => exact ⟨rfl, rfl, rfl⟩
  | cons h more ih =>
    obtain ⟨hstate, hlatest, hlatch⟩ := happen_of_final hs hfinal h
    obtain ⟨h₁, h₂, h₃⟩ := ih (happen_spec hs h).1 (by rw [hstate]; exact hfinal)
    exact ⟨h₁.trans hstate, h₂.trans hlatest, h₃.trans hlatch⟩

theorem play_sound {s : Session} (hs : s.Sound) (hs' : List Happening) : (s.play hs').Sound := by
  induction hs' generalizing s with
  | nil => exact hs
  | cons h hs' ih => exact ih (happen_spec hs h).1

/-! ## The start -/

/-- A session that has just been started. -/
def fresh (plan : SessionPlan) (source : Playback) (navigator : Navigator) : Session :=
  { plan, source, latch := { navigator } }

theorem fresh_sound (plan : SessionPlan) (source : Playback) (navigator : Navigator) :
    (fresh plan source navigator).Sound where
  final_of_cancelled := by simp [fresh, CancellationToken.isCancelled]
  cancelled_of_state := by simp [fresh]
  fired_iff := by simp [fresh]
  final_of_dropped := by simp [fresh]
  ready_of_idle := by simp [fresh]
  unrun_of_ready := by simp [fresh]
  closing_of_terminal := by simp [fresh]

end Session

/-- Whatever configuration is valid, a session starts with it. -/
theorem Session.start_of_validate {config : Config} (h : config.validate = .ok config)
    (id appId : String) (source : Playback) (navigator : Navigator) (sink : SinkKind)
    (timeText : Nat → String) :
    Session.start id appId config source navigator sink timeText =
      .ok (fresh ⟨id, appId, config, Config.fault?_of_validate h, sink, timeText⟩ source
        navigator) := by
  have hvalid := Config.fault?_of_validate h
  unfold Session.start
  split
  · rename_i fault hfault
    rw [hvalid] at hfault
    cases hfault
  · rfl

/-- What is known of a session that has just been started. -/
structure Session.Started (config : Config) (appId : String) (source : Playback)
    (navigator : Navigator) (sink : SinkKind) (s : Session) : Prop extends s.Sound where
  config_eq : s.config = config
  appId_eq : s.appId = appId
  source_eq : s.source = source
  sink_eq : s.plan.sink = sink
  idle : s.state = .idle
  latest : s.latest = {}
  latch : s.latch = { navigator }
  events : s.events = #[]
  phase : s.phase = .ready

theorem Session.exists_started {config : Config} (h : config.validate = .ok config)
    (id appId : String) (source : Playback) (navigator : Navigator) (sink : SinkKind)
    (timeText : Nat → String) :
    ∃ s₀, Session.start id appId config source navigator sink timeText = .ok s₀ ∧
      s₀.Started config appId source navigator sink :=
  ⟨_, start_of_validate h .., fresh_sound _ _ _, rfl, rfl, rfl, rfl, rfl, rfl, rfl, rfl, rfl⟩

end Provisioning
