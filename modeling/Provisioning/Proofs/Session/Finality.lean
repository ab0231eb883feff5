-- A session that is over stays as it is. Its loop only tells what it has in hand,
-- and no fetch begins or ends any more.
import Provisioning.Proofs.Session.Delivery

namespace Provisioning

def Happening.isStop : Happening → Bool
  | .stop _ | .drop => true
  | _ => false

namespace Session

/-! ## The source of a session that is over -/

/-- What the loop makes known starts no fetch, if it comes to its end after that or has
to stop. -/
theorem perform_source {s : Session} (todo : List Output) {next : LoopNext}
    (hnext : s.token.isCancelled = true ∨ ∃ outcome, next = .finish outcome) :
    (s.perform todo next).source = s.source := by
  induction todo generalizing s with
  | nil =>
    rcases hnext with hcancelled | ⟨outcome, rfl⟩
    · simp only [perform, enter, if_pos hcancelled]
      cases next with
      | fetch => exact s.conclude_source
      | rest => exact s.conclude_source
      | finish outcome => rfl
    · rfl
  | cons o todo ih =>
    cases o with
    | say line => exact ih hnext
    | emit event =>
      simp only [perform]
      split
      · rw [ih (by rw [(s.deliver_standing event).token]; exact hnext), deliver_source]
      · rfl

/-- A loop that has something in hand once the session is over comes to its end after it
or has to stop. -/
theorem Sound.stops_after_emitting {s : Session} (hs : s.Sound) (hfinal : s.state.isFinal = true)
    {event : Event} {todo : List Output} {next : LoopNext}
    (hphase : s.phase = .emitting event todo next) :
    s.token.isCancelled = true ∨ ∃ outcome, next = .finish outcome := by
  rcases s.state.isFinal_iff.mp hfinal with hstate | hstate
  · exact Or.inr (hs.finish_of_emitting hstate hphase)
  · exact Or.inl (hs.cancelled_of_state hstate)

theorem emitting_later_source {s : Session} (hs : s.Sound) (hfinal : s.state.isFinal = true)
    {event : Event} {todo : List Output} {next : LoopNext}
    (hphase : s.phase = .emitting event todo next) (ms : Nat) :
    (((s.later ms).deliver event).perform todo next).source = s.source := by
  have htoken := ((s.later ms).deliver_standing event).token
  have hstops := hs.stops_after_emitting hfinal hphase
  rw [perform_source todo (by rw [htoken]; exact hstops), deliver_source]
  rfl

theorem move_source_of_final {s : Session} (hs : s.Sound) (hfinal : s.state.isFinal = true) :
    s.move.source = s.source := by
  have htoken : s.phase = .fetching ∨ s.phase = .resting → s.token.isCancelled = true := by
    intro hphase
    rcases hs.parked hphase with ⟨hpolling, -⟩ | ⟨-, hcancelled⟩
    · rw [hpolling] at hfinal
      cases hfinal
    · exact hcancelled
  rcases hphase : s.phase with _ | _ | ⟨event, todo, next⟩ | _ | how
  · simp only [move, hphase]
    rw [begin_of_final hs hphase hfinal]
    exact s.conclude_source
  · rw [move_of_cancelled (Or.inl hphase) (htoken (Or.inl hphase))]
    exact s.conclude_source
  · rw [move_of_emitting hphase]
    exact emitting_later_source hs hfinal hphase _
  · rw [move_of_cancelled (Or.inr hphase) (htoken (Or.inr hphase))]
    exact s.conclude_source
  · simp only [move, hphase]

/-! ## At rest -/

/-- From one session to the next, nothing has changed but that the sink may have got the
first of the events that the loop had in hand. -/
structure AtRest (s t : Session) : Prop where
  state : t.state = s.state
  latest : t.latest = s.latest
  hasNavigated : t.hasNavigated = s.hasNavigated
  routes : t.latch.navigator = s.latch.navigator
  calls : t.source.calls = s.source.calls
  completed : t.source.completed = s.source.completed
  events : ∃ told, t.events.toList = s.events.toList ++ told ∧
    told ++ t.phase.pending <+: s.phase.pending

theorem AtRest.refl (s : Session) : AtRest s s :=
  ⟨rfl, rfl, rfl, rfl, rfl, rfl, [], by simp, by simp⟩

theorem AtRest.trans {s t u : Session} (h₁ : AtRest s t) (h₂ : AtRest t u) : AtRest s u := by
  obtain ⟨told, hlog, hrow⟩ := h₁.events
  obtain ⟨more, hlog', hrow'⟩ := h₂.events
  refine ⟨h₂.state.trans h₁.state, h₂.latest.trans h₁.latest,
    h₂.hasNavigated.trans h₁.hasNavigated, h₂.routes.trans h₁.routes, h₂.calls.trans h₁.calls,
    h₂.completed.trans h₁.completed, told ++ more, ?_, ?_⟩
  · rw [hlog', hlog, List.append_assoc]
  · rw [List.append_assoc]
    exact ((List.prefix_append_right_inj told).mpr hrow').trans hrow

/-- A sink that had all the events keeps its log. -/
theorem AtRest.events_eq {s t : Session} (h : AtRest s t) (hempty : s.phase.pending = []) :
    t.events = s.events := by
  obtain ⟨told, hlog, hrow⟩ := h.events
  rw [hempty, List.prefix_nil, List.append_eq_nil_iff] at hrow
  rw [hrow.1, List.append_nil] at hlog
  exact Array.toList_inj.mp hlog

theorem stop_atRest {s : Session} (hfinal : s.state.isFinal = true) (reason : String) :
    AtRest s (s.stop reason) := by
  have hstop := s.stop_stopped reason
  have hlog := s.stop_events reason
  rw [if_pos hfinal, SinkKind.keeps_nil] at hlog
  refine ⟨?_, hstop.latest, ?_, ?_, ?_, ?_, [], hlog, ?_⟩
  · rw [stop_state, if_pos hfinal]
  · rw [hasNavigated, hstop.latch, hasNavigated]
  · rw [hstop.latch]
  · rw [hstop.source]
  · rw [hstop.source]
  · rcases s.stop_pending reason with hp | hp
    · simp [hp]
    · simp [hp]

theorem move_atRest {s : Session} (hs : s.Sound) (hfinal : s.state.isFinal = true) :
    AtRest s s.move := by
  obtain ⟨hstate, hlatest, hlatch⟩ := happen_of_final hs hfinal .move
  have hsource := move_source_of_final hs hfinal
  obtain ⟨told, hlog, hrow, -⟩ := move_tells hs
  rw [if_pos hfinal, tidings_none, List.append_nil] at hrow
  refine ⟨hstate, hlatest, congrArg NavigationLatch.hasFired hlatch,
    congrArg NavigationLatch.navigator hlatch, by rw [hsource], by rw [hsource], told, hlog, ?_⟩
  rw [hrow]
  exact SinkKind.keeps_initial _ _

/-- Nothing that happens to a session that is over disturbs it. -/
theorem happen_atRest {s : Session} (hs : s.Sound) (hfinal : s.state.isFinal = true)
    (h : Happening) : AtRest s (s.happen h) := by
  cases h with
  | clock ms => exact { AtRest.refl s with }
  | push entry => exact { AtRest.refl s with }
  | release =>
    simp only [happen]
    split
    · exact AtRest.refl s
    · exact { AtRest.refl s with }
  | move => exact move_atRest hs hfinal
  | stop reason =>
    simp only [happen]
    split
    · exact AtRest.refl s
    · exact stop_atRest hfinal reason
  | drop =>
    simp only [happen]
    split
    · exact AtRest.refl s
    · exact { stop_atRest hfinal "session dropped" with }

theorem play_atRest {s : Session} (hs : s.Sound) (hfinal : s.state.isFinal = true)
    (more : List Happening) : AtRest s (s.play more) := by
  induction more generalizing s with
  | nil => exact AtRest.refl s
  | cons h more ih =>
    have hrest := happen_atRest hs hfinal h
    exact hrest.trans (ih (happen_spec hs h).1 (by rw [hrest.state]; exact hfinal))

/-! ## Before the end -/

/-- A state only goes from idle to polling, from there to terminal, or to its end by a
stop. -/
theorem Effect.state_follows {s t : Session} {o : Option Occurrence} (he : Effect s t o) :
    t.state = s.state ∨ (s.state = .idle ∧ t.state = .polling) ∨
      (s.state = .polling ∧ t.state = .terminal) ∨
      (s.state.isFinal = false ∧ t.state = .cancelled) := by
  cases he with
  | quiet state latest latch => exact Or.inl state
  | began idle state latest latch => exact Or.inr (Or.inl ⟨idle, state⟩)
  | failed e polling state latest latch => exact Or.inl (state.trans polling.symm)
  | progressed a time polling terminal state latest latch =>
    exact Or.inl (state.trans polling.symm)
  | reached a time polling terminal state latest latch =>
    exact Or.inr (Or.inr (Or.inl ⟨polling, state⟩))
  | stopped reason live state latest latch => exact Or.inr (Or.inr (Or.inr ⟨live, state⟩))

/-- A stop ends a session, at the latest, and neither begins nor ends a fetch. -/
theorem happen_of_stop {s : Session} (hs : s.Sound) {h : Happening} (hstop : h.isStop = true) :
    (s.happen h).state.isFinal = true ∧ (s.happen h).source = s.source := by
  cases h with
  | clock ms => cases hstop
  | push entry => cases hstop
  | release => cases hstop
  | move => cases hstop
  | stop reason =>
    simp only [happen]
    split
    · rename_i hd
      exact ⟨hs.final_of_dropped hd, rfl⟩
    · exact ⟨s.stop_isFinal reason, (s.stop_stopped reason).source⟩
  | drop =>
    simp only [happen]
    split
    · rename_i hd
      exact ⟨hs.final_of_dropped hd, rfl⟩
    · exact ⟨s.stop_isFinal _, (s.stop_stopped _).source⟩

/-! ## The law -/

/-- Once a session is over, it is at rest whatever happens: state, snapshot, latch,
routes and fetches stay as they are, and so does the log, but for the first of the events
that the loop still had in hand for a sink that takes time. A stop, also in the
middle of a fetch, ends the session, and no fetch begins or ends after it. Until then
the state only goes forward. -/
theorem what_is_over_stays_as_it_is {config : Config} (hvalid : config.validate = .ok config)
    (id appId : String) (source : Playback) (navigator : Navigator) (sink : SinkKind)
    (timeText : Nat → String) :
    ∃ s₀, Session.start id appId config source navigator sink timeText = .ok s₀ ∧
      (∀ hs, (s₀.play hs).state.isFinal = true →
        (∀ more, AtRest (s₀.play hs) (s₀.play (hs ++ more)) ∧
          (sink.delayMs = 0 → (s₀.play (hs ++ more)).events = (s₀.play hs).events)) ∧
        ∀ steps, AtRest (s₀.play hs) ((s₀.play hs).run steps)) ∧
      (∀ hs (h : Happening), h.isStop = true → ∀ more,
        (s₀.play (hs ++ h :: more)).state.isFinal = true ∧
        (s₀.play (hs ++ h :: more)).source.calls = (s₀.play hs).source.calls ∧
        (s₀.play (hs ++ h :: more)).source.completed = (s₀.play hs).source.completed) ∧
      ∀ hs h, (s₀.play (hs ++ [h])).state = (s₀.play hs).state ∨
        ((s₀.play hs).state = .idle ∧ (s₀.play (hs ++ [h])).state = .polling) ∨
        ((s₀.play hs).state = .polling ∧ (s₀.play (hs ++ [h])).state = .terminal) ∨
        ((s₀.play hs).state.isFinal = false ∧ (s₀.play (hs ++ [h])).state = .cancelled) := by
  obtain ⟨s₀, hstart, hs₀⟩ := exists_started hvalid id appId source navigator sink timeText
  have hsound := hs₀.toSound
  refine ⟨s₀, hstart, ?_, ?_, ?_⟩
  · intro hs hfinal
    have hrest := play_atRest (play_sound hsound hs) hfinal
    refine ⟨fun more => ?_, fun steps => ?_⟩
    · rw [play_append]
      refine ⟨hrest more, fun hprompt => (hrest more).events_eq ?_⟩
      exact play_pending hsound (by rw [hs₀.sink_eq]; exact hprompt) (by rw [hs₀.phase]; rfl) hs
    · obtain ⟨more, hmore⟩ := (s₀.play hs).exists_play_run steps
      rw [hmore]
      exact hrest more
  · intro hs h hstop more
    obtain ⟨hfinal, hsource⟩ := happen_of_stop (play_sound hsound hs) hstop
    have hrest := play_atRest (happen_spec (play_sound hsound hs) h).1 hfinal more
    rw [play_append, play_cons]
    refine ⟨?_, ?_, ?_⟩
    · rw [hrest.state]
      exact hfinal
    · rw [hrest.calls, hsource]
    · rw [hrest.completed, hsource]
  · intro hs h
    rw [play_snoc]
    exact (happen_spec (play_sound hsound hs) h).2.state_follows

/-- A session that is terminal keeps its log over a stop, and a stop in the middle of a
fetch leaves that fetch without an end. -/
theorem log_stays_and_the_fetch_never_ends :
    ∃ s₀, Session.start "s1" "a1" Config.standard
        { script := [.ok (.reporting "a1" "environment_vars" "finished")] } .detached
        (.collecting 0) (fun _ => "") = .ok s₀ ∧
      (s₀.play [.move, .move]).state = .terminal ∧
      (s₀.play [.move, .move, .stop "late", .move, .drop]).events =
        (s₀.play [.move, .move]).events ∧
      (s₀.play [.move, .release, .stop "closed", .move]).state.isFinal = true ∧
      (s₀.play [.move, .release, .stop "closed", .move]).source.completed = 0 := by
  obtain ⟨s₀, hstart, hrest, hstop, -⟩ := what_is_over_stays_as_it_is Config.standard_validate
    "s1" "a1" { script := [.ok (.reporting "a1" "environment_vars" "finished")] } .detached
    (.collecting 0) (fun _ => "")
  have hs₀ := hstart
  rw [start_of_validate Config.standard_validate] at hs₀
  have hterminal : (s₀.play [.move, .move]).state = .terminal := by
    cases hs₀
    rfl
  have hnone : (s₀.play [.move, .release]).source.completed = 0 := by
    cases hs₀
    rfl
  obtain ⟨hmore, -⟩ := hrest [.move, .move] (by rw [hterminal]; rfl)
  obtain ⟨hfinal, -, hcompleted⟩ := hstop [.move, .release] (.stop "closed") rfl [.move]
  exact ⟨s₀, hstart, hterminal, (hmore [.stop "late", .move, .drop]).2 rfl, hfinal,
    hcompleted.trans hnone⟩

/-- A sink that takes its time still gets the events of the last record when the session
is over. -/
theorem slow_sink_is_told_after_the_end :
    ¬ ∀ (config : Config), config.validate = .ok config →
      ∀ (id appId : String) (source : Playback) (navigator : Navigator) (sink : SinkKind)
        (timeText : Nat → String) (s₀ : Session),
        Session.start id appId config source navigator sink timeText = .ok s₀ →
        ∀ steps more, (s₀.run steps).state.isFinal = true →
          (s₀.run (steps ++ more)).events = (s₀.run steps).events := by
  intro hclaim
  have hstart := start_of_validate Config.standard_validate "s1" "a1"
    { script := [.ok (.reporting "a1" "environment_vars" "finished")] } .detached
    (.collecting 100) (fun _ => "")
  have h := hclaim _ Config.standard_validate _ _ _ _ _ _ _ hstart [.advance 150] [.advance 1000]
  generalize hs : fresh _ _ _ = s₀ at h
  have hover : s₀.run [.advance 150] = (s₀.setClock 150).play [.move, .move, .move] := by
    subst hs
    simp only [run, List.foldl, step, act, settle]
    rw [runWhile_of_due 0 rfl (by decide), runWhile_of_due 100 rfl (by decide),
      runWhile_of_due 100 rfl (by decide), runWhile_of_late (by rintro due ⟨⟩; decide)]
    rfl
  have hlater : (s₀.run [.advance 150]).run [.advance 1000] =
      (((s₀.setClock 150).play [.move, .move, .move]).setClock 1150).play [.move, .move] := by
    rw [hover]
    subst hs
    simp only [run, List.foldl, step, act, settle]
    rw [runWhile_of_due 200 rfl (by decide), runWhile_of_due 300 rfl (by decide),
      runWhile_of_late (by rintro due ⟨⟩)]
    rfl
  have hover_events : (s₀.run [.advance 150]).events.size = 1 := by
    rw [hover]
    subst hs
    rfl
  have hlater_events : (s₀.run ([.advance 150] ++ [.advance 1000])).events.size = 3 := by
    have happend : s₀.run ([.advance 150] ++ [.advance 1000]) =
        (s₀.run [.advance 150]).run [.advance 1000] := List.foldl_append
    rw [happend, hlater]
    subst hs
    rfl
  have hfinal : (s₀.run [.advance 150]).state.isFinal = true := by
    rw [hover]
    subst hs
    rfl
  rw [h hfinal, hover_events] at hlater_events
  cases hlater_events

end Session

end Provisioning
