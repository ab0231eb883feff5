-- The invariant of a session: token, latch and loop agree with its state. A
-- stop and the loop's output keep it.
import Provisioning.Proofs.Session.Happening

namespace Provisioning

theorem SessionState.isFinal_iff (s : SessionState) :
    s.isFinal = true ↔ s = .terminal ∨ s = .cancelled := by
  cases s <;> simp [SessionState.isFinal]

/-- Is nothing left to the loop but to make its end known? -/
def LoopPhase.isClosing : LoopPhase → Bool
  | emitting _ _ (.finish _) | ended _ => true
  | _ => false

namespace Session

/-- The token, the latch and the hold agree with the state. -/
structure Steady (s : Session) : Prop where
  final_of_cancelled : s.token.isCancelled = true → s.state.isFinal = true
  cancelled_of_state : s.state = .cancelled → s.token.isCancelled = true
  fired_iff : s.latch.hasFired = true ↔ s.state = .terminal
  final_of_dropped : s.isDropped = true → s.state.isFinal = true

/-- The loop is where the state says: it has not run as long as the session is idle,
and it only has to tell of its end once the session is terminal. -/
structure Sound (s : Session) : Prop extends s.Steady where
  ready_of_idle : s.state = .idle → s.phase = .ready
  unrun_of_ready : s.phase = .ready → s.state = .idle ∨ s.state = .cancelled
  closing_of_terminal : s.state = .terminal → s.phase.isClosing = true

theorem Steady.token_of_live {s : Session} (hs : s.Steady) (hlive : s.state.isFinal = false) :
    s.token.isCancelled = false := by
  by_contra hc
  have := hs.final_of_cancelled (by simpa using hc)
  rw [hlive] at this
  cases this

/-- Whatever ends a session that is over: nothing but the loop's end comes of it. -/
theorem conclude_of_final {s : Session} (hfinal : s.state.isFinal = true) :
    s.conclude = { s with phase := .ended (.finished .cancelled) } := by
  simp [conclude, moveTo, hfinal]

/-! ## What the loop makes known -/

/-- Two sessions with the same standing: they differ in what the loop is about and
has made known, not in anything that it has brought about. -/
structure SameStanding (s t : Session) : Prop where
  state : t.state = s.state
  token : t.token = s.token
  latest : t.latest = s.latest
  latch : t.latch = s.latch
  isDropped : t.isDropped = s.isDropped

theorem SameStanding.refl (s : Session) : SameStanding s s := ⟨rfl, rfl, rfl, rfl, rfl⟩

theorem SameStanding.trans {s t u : Session} (h₁ : SameStanding s t) (h₂ : SameStanding t u) :
    SameStanding s u :=
  ⟨h₂.state.trans h₁.state, h₂.token.trans h₁.token, h₂.latest.trans h₁.latest,
    h₂.latch.trans h₁.latch, h₂.isDropped.trans h₁.isDropped⟩

theorem SameStanding.steady {s t : Session} (h : SameStanding s t) (hs : s.Steady) : t.Steady where
  final_of_cancelled := by rw [h.state, h.token]; exact hs.final_of_cancelled
  cancelled_of_state := by rw [h.state, h.token]; exact hs.cancelled_of_state
  fired_iff := by rw [h.state, h.latch]; exact hs.fired_iff
  final_of_dropped := by rw [h.state, h.isDropped]; exact hs.final_of_dropped

theorem deliver_standing (s : Session) (e : Event) : SameStanding s (s.deliver e) := by
  unfold deliver; split <;> exact ⟨rfl, rfl, rfl, rfl, rfl⟩

theorem beginFetch_standing (s : Session) : SameStanding s s.beginFetch := by
  simp only [beginFetch]; split <;> exact ⟨rfl, rfl, rfl, rfl, rfl⟩

theorem conclude_standing {s : Session} (hfinal : s.state.isFinal = true) :
    SameStanding s s.conclude := by
  rw [conclude_of_final hfinal]
  exact ⟨rfl, rfl, rfl, rfl, rfl⟩

theorem enter_standing {s : Session} (hs : s.Steady) (next : LoopNext) :
    SameStanding s (s.enter next) := by
  unfold enter
  split
  · exact ⟨rfl, rfl, rfl, rfl, rfl⟩
  · split
    · exact conclude_standing (hs.final_of_cancelled ‹_›)
    · exact s.beginFetch_standing
  · split
    · exact conclude_standing (hs.final_of_cancelled ‹_›)
    · exact ⟨rfl, rfl, rfl, rfl, rfl⟩

theorem perform_standing {s : Session} (hs : s.Steady) (todo : List Output) (next : LoopNext) :
    SameStanding s (s.perform todo next) := by
  induction todo generalizing s with
  | nil => exact enter_standing hs next
  | cons o todo ih =>
    cases o with
    | say line =>
      have hsaid : SameStanding s (s.say .poller line) := ⟨rfl, rfl, rfl, rfl, rfl⟩
      exact hsaid.trans (ih (hsaid.steady hs))
    | emit event =>
      simp only [perform]
      split
      · have hd := s.deliver_standing event
        exact hd.trans (ih (hd.steady hs))
      · exact ⟨rfl, rfl, rfl, rfl, rfl⟩

theorem conclude_phase_ne_ready (s : Session) : s.conclude.phase ≠ .ready := by
  simp only [conclude]
  split
  · split <;> simp
  · simp

theorem perform_phase_ne_ready (s : Session) (todo : List Output) (next : LoopNext) :
    (s.perform todo next).phase ≠ .ready := by
  induction todo generalizing s with
  | nil =>
    simp only [perform, enter]
    split
    · simp
    · split
      · exact s.conclude_phase_ne_ready
      · simp only [beginFetch]; split <;> simp [say]
    · split
      · exact s.conclude_phase_ne_ready
      · simp
  | cons o todo ih =>
    cases o with
    | say line => exact ih _
    | emit event =>
      simp only [perform]
      split
      · exact ih _
      · simp

theorem perform_finish_isClosing (s : Session) (todo : List Output) (outcome : PollVerdict) :
    (s.perform todo (.finish outcome)).phase.isClosing = true := by
  induction todo generalizing s with
  | nil => rfl
  | cons o todo ih =>
    cases o with
    | say line => exact ih _
    | emit event =>
      simp only [perform]
      split
      · exact ih _
      · rfl

/-- A loop that has run and makes something known leaves the session sound. -/
theorem perform_sound {s : Session} (hs : s.Steady) (hran : s.state ≠ .idle) (todo : List Output)
    {next : LoopNext} (hnext : s.state = .terminal → ∃ outcome, next = .finish outcome) :
    (s.perform todo next).Sound := by
  have hsame := perform_standing hs todo next
  refine { hsame.steady hs with ready_of_idle := ?_, unrun_of_ready := ?_, closing_of_terminal := ?_ }
  · intro hidle
    rw [hsame.state] at hidle
    exact absurd hidle hran
  · intro hready
    exact absurd hready (s.perform_phase_ne_ready todo next)
  · intro hterminal
    rw [hsame.state] at hterminal
    obtain ⟨outcome, rfl⟩ := hnext hterminal
    exact s.perform_finish_isClosing todo outcome

theorem conclude_sound {s : Session} (hs : s.Steady) (hfinal : s.state.isFinal = true) :
    s.conclude.Sound := by
  have hsame := conclude_standing hfinal
  refine { hsame.steady hs with ready_of_idle := ?_, unrun_of_ready := ?_, closing_of_terminal := ?_ }
  · intro hidle
    rw [hsame.state] at hidle
    rw [hidle] at hfinal
    cases hfinal
  · intro hready
    exact absurd hready s.conclude_phase_ne_ready
  · intro _
    rw [conclude_of_final hfinal]
    rfl

/-! ## A stop -/

theorem cancel_isCancelled (t : CancellationToken) (reason : String) :
    (t.cancel reason).1.isCancelled = true := by
  unfold CancellationToken.cancel
  split
  · rename_i h
    simp [CancellationToken.isCancelled, h]
  · rfl

theorem abort_standing (s : Session) : SameStanding s s.abort := by
  unfold abort; split <;> exact ⟨rfl, rfl, rfl, rfl, rfl⟩

/-- A stop of a session that is over cancels the token and no more. -/
theorem stop_of_final {s : Session} (hfinal : s.state.isFinal = true) (reason : String) :
    s.stop reason = { s with token := (s.token.cancel reason).1 }.abort := by
  have h := (abort_standing { s with token := (s.token.cancel reason).1 }).state
  simp [stop, moveTo, h, hfinal]

theorem stop_of_live {s : Session} (hlive : s.state.isFinal = false) (reason : String) :
    s.stop reason =
      (({ { s with token := (s.token.cancel reason).1 }.abort with state := .cancelled } : Session).say
        .session ⟨.debug, "Session stopped"⟩).deliver (.cancelled s.appId reason) := by
  have h := (abort_standing { s with token := (s.token.cancel reason).1 }).state
  have hplan : { s with token := (s.token.cancel reason).1 }.abort.plan = s.plan :=
    congrArg Prod.fst (abort_setting _)
  simp [stop, moveTo, h, hlive, appId, hplan]

theorem abort_phase (s : Session) :
    s.abort.phase = s.phase ∨ s.abort.phase = .ended .aborted := by
  unfold abort
  split
  · by_cases he : s.phase.isEnded = true
    · exact Or.inl (by simp [he])
    · exact Or.inr (by simp [he])
  · exact Or.inl rfl

theorem abort_source (s : Session) : s.abort.source = s.source := by
  unfold abort; split <;> rfl

theorem deliver_phase (s : Session) (e : Event) : (s.deliver e).phase = s.phase := by
  unfold deliver; split <;> rfl

theorem deliver_source (s : Session) (e : Event) : (s.deliver e).source = s.source := by
  unfold deliver; split <;> rfl

theorem conclude_source (s : Session) : s.conclude.source = s.source := by
  have hmove : (s.moveTo .cancelled).1.source = s.source := by
    unfold moveTo
    split <;> rfl
  simp only [conclude]
  split
  · split
    · exact (deliver_source _ _).trans hmove
    · exact hmove
  · exact hmove

theorem stop_state (s : Session) (reason : String) :
    (s.stop reason).state = if s.state.isFinal then s.state else .cancelled := by
  by_cases hfinal : s.state.isFinal = true
  · rw [stop_of_final hfinal, (abort_standing _).state, if_pos hfinal]
  · rw [stop_of_live (by simpa using hfinal), (deliver_standing _ _).state, if_neg hfinal]
    rfl

theorem stop_isFinal (s : Session) (reason : String) : (s.stop reason).state.isFinal = true := by
  rw [stop_state]
  split
  · assumption
  · rfl

/-- A stop touches neither the snapshot nor the latch nor the source, and the loop
goes on or ends. -/
structure Stopped (s t : Session) : Prop where
  token : t.token.isCancelled = true
  latest : t.latest = s.latest
  latch : t.latch = s.latch
  source : t.source = s.source
  isDropped : t.isDropped = s.isDropped
  phase : t.phase = s.phase ∨ t.phase = .ended .aborted

theorem stop_stopped (s : Session) (reason : String) : Stopped s (s.stop reason) := by
  have habort := abort_standing { s with token := (s.token.cancel reason).1 }
  have hphase := abort_phase { s with token := (s.token.cancel reason).1 }
  have hsource := abort_source { s with token := (s.token.cancel reason).1 }
  have htoken := cancel_isCancelled s.token reason
  by_cases hfinal : s.state.isFinal = true
  · rw [stop_of_final hfinal]
    exact ⟨by rw [habort.token]; exact htoken, habort.latest, habort.latch, hsource,
      habort.isDropped, hphase⟩
  · rw [stop_of_live (by simpa using hfinal)]
    generalize ht : { s with token := (s.token.cancel reason).1 }.abort = t at *
    generalize hu : ({ t with state := .cancelled } : Session).say .session
      ⟨.debug, "Session stopped"⟩ = u
    have hd := u.deliver_standing (.cancelled s.appId reason)
    refine ⟨?_, ?_, ?_, ?_, ?_, ?_⟩
    · rw [hd.token, ← hu]
      exact (congrArg CancellationToken.isCancelled habort.token).trans htoken
    · rw [hd.latest, ← hu]
      exact habort.latest
    · rw [hd.latch, ← hu]
      exact habort.latch
    · rw [deliver_source, ← hu]
      exact hsource
    · rw [hd.isDropped, ← hu]
      exact habort.isDropped
    · rw [deliver_phase, ← hu]
      exact hphase

theorem stop_steady {s : Session} (hs : s.Steady) (reason : String) : (s.stop reason).Steady := by
  have hstop := s.stop_stopped reason
  refine ⟨fun _ => s.stop_isFinal reason, fun _ => hstop.token, ?_, fun _ => s.stop_isFinal reason⟩
  rw [hstop.latch, stop_state, hs.fired_iff]
  split
  · rfl
  · rename_i hlive
    constructor
    · intro h
      rw [h] at hlive
      exact absurd rfl hlive
    · intro h
      cases h

theorem stop_sound {s : Session} (hs : s.Sound) (reason : String) : (s.stop reason).Sound := by
  have hstop := s.stop_stopped reason
  have hfinal := s.stop_isFinal reason
  have hterminal : (s.stop reason).state = .terminal → s.state = .terminal := by
    rw [stop_state]
    split
    · exact id
    · intro h
      cases h
  refine { stop_steady hs.toSteady reason with
    ready_of_idle := ?_, unrun_of_ready := ?_, closing_of_terminal := ?_ }
  · intro h
    rw [h] at hfinal
    cases hfinal
  · intro hready
    rcases (s.stop reason).state.isFinal_iff.mp hfinal with h | h
    · have hclosing := hs.closing_of_terminal (hterminal h)
      rcases hstop.phase with hp | hp
      · rw [← hp, hready] at hclosing
        cases hclosing
      · rw [hp] at hready
        cases hready
    · exact Or.inr h
  · intro h
    rcases hstop.phase with hp | hp
    · rw [hp]
      exact hs.closing_of_terminal (hterminal h)
    · rw [hp]
      rfl

theorem drop_sound {s : Session} (hs : s.Sound) : s.drop.Sound :=
  { stop_sound hs "session dropped" with final_of_dropped := fun _ => s.stop_isFinal _ }

/-! ## Time -/

theorem later_standing (s : Session) (ms : Nat) : SameStanding s (s.later ms) :=
  ⟨rfl, rfl, rfl, rfl, rfl⟩

theorem later_sound {s : Session} (hs : s.Sound) (ms : Nat) : (s.later ms).Sound :=
  { (s.later_standing ms).steady hs.toSteady with
    ready_of_idle := hs.ready_of_idle
    unrun_of_ready := hs.unrun_of_ready
    closing_of_terminal := hs.closing_of_terminal }

end Session

end Provisioning
