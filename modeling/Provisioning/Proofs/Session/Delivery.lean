-- What the sink of a session gets. The loop tells its events one after the other;
-- a sink that takes time leaves some of them in the loop's hands meanwhile.
import Provisioning.Proofs.Session.Effect

namespace Provisioning

/-! ## Events by what they are about -/

/-- The events of a record, by the state in it: none at all, one that is no stage, or a
stage with its level. The terminal marker brings one more. -/
def recordEvents (c : Config) (appId : String) (durationMs : Double) : Option String → List Event
  | none => [.fetched appId none none durationMs]
  | some state =>
    (match c.stateLevel state with
      | none => [.unknownStage appId state, .fetched appId (some state) none durationMs]
      | some level => [.fetched appId (some state) (some level) durationMs]) ++
    if c.terminalMarker = some state then [.terminal appId ("/app/view/" ++ appId)] else []

/-- The events of a result. -/
def FetchResult.events (c : Config) (appId : String) (durationMs : Double) :
    FetchResult → List Event
  | .error e => [.failed appId e.kind e.message e.isTransient]
  | .ok a => recordEvents c appId durationMs (a.state c)

/-- The events of something that comes to a session. -/
def Occurrence.events (c : Config) (sessionId appId : String) (durationMs : Double) :
    Occurrence → List Event
  | began => [.started sessionId appId]
  | arrived result => result.events c appId durationMs
  | stopped reason => [.cancelled appId reason]

def Output.event? : Output → Option Event
  | say _ => none
  | emit event => some event

@[simp] theorem Output.events_say (line : LogLine) (todo : List Output) :
    (say line :: todo).filterMap event? = todo.filterMap event? := rfl

@[simp] theorem Output.events_emit (event : Event) (todo : List Output) :
    (emit event :: todo).filterMap event? = event :: todo.filterMap event? := rfl

/-- The events that the loop has in hand. -/
def LoopPhase.pending : LoopPhase → List Event
  | emitting event todo _ => event :: todo.filterMap Output.event?
  | _ => []

/-- What a sink keeps of some events. -/
def SinkKind.keeps : SinkKind → List Event → List Event
  | collecting _, events => events
  | _, _ => []

theorem SinkKind.keeps_nil (k : SinkKind) : k.keeps [] = [] := by
  cases k <;> rfl

theorem SinkKind.keeps_cons (k : SinkKind) (e : Event) (events : List Event) :
    k.keeps (e :: events) = k.keeps [e] ++ k.keeps events := by
  cases k <;> rfl

/-- Only a sink that keeps events takes time for them. -/
theorem SinkKind.keeps_of_slow {k : SinkKind} (h : k.delayMs ≠ 0) (events : List Event) :
    k.keeps events = events := by
  cases k with
  | discarding => exact absurd rfl h
  | collecting delayMs => rfl
  | logging level => exact absurd rfl h

theorem SinkKind.keeps_initial (k : SinkKind) (events : List Event) : k.keeps events <+: events := by
  cases k with
  | discarding => exact List.nil_prefix
  | collecting delayMs => exact List.prefix_refl events
  | logging level => exact List.nil_prefix

/-- What a record brings out is what its state says. -/
theorem recordOutputs_events (c : Config) (appId : String) (durationMs : Double)
    (state : Option String) :
    (Session.recordOutputs appId state (state.bind c.stateLevel) durationMs (state.any c.isTerminal)
      (if state.any c.isTerminal then some (.view appId) else none)).filterMap Output.event? =
      recordEvents c appId durationMs state := by
  cases state with
  | none => rfl
  | some state =>
    by_cases hterminal : c.terminalMarker = some state
    · have hany : (some state).any c.isTerminal = true := by simp [Config.isTerminal, hterminal]
      rw [hany, recordEvents, if_pos hterminal, Option.bind_some]
      cases c.stateLevel state <;> rfl
    · have hany : (some state).any c.isTerminal = false := by simp [Config.isTerminal, hterminal]
      rw [hany, recordEvents, if_neg hterminal, Option.bind_some]
      cases c.stateLevel state <;> rfl

theorem Playback.answer_delayMs (p : Playback) (appId : String) :
    (p.answer appId).1.delayMs = p.delayMs := by
  simp only [answer]
  split <;> rfl

namespace Session

theorem recordOutputsOf_events (s : Session) (a : Application) :
    (s.recordOutputsOf a ((a.state s.config).any s.config.isTerminal)).filterMap Output.event? =
      FetchResult.events s.config s.appId (.ofNat s.source.delayMs) (.ok a) :=
  recordOutputs_events s.config s.appId _ (a.state s.config)

theorem failureOutputs_events (s : Session) (e : FetchError) (durationMs : Double) :
    (failureOutputs s.appId e).filterMap Output.event? =
      FetchResult.events s.config s.appId durationMs (.error e) := by
  simp [failureOutputs, FetchResult.events, Event.ofError]

/-! ## Telling -/

/-- From one session to the next, a row of events is told: the log grows by the first
of them, and the rest is in the loop's hands, if the sink takes time. -/
def Tells (s t : Session) (events : List Event) : Prop :=
  ∃ told, t.events.toList = s.events.toList ++ told ∧ told ++ t.phase.pending = events ∧
    (t.plan.sink.delayMs = 0 → t.phase.pending = [])

theorem Tells.of_nothing {s t : Session} (hlog : t.events = s.events)
    (hpending : t.phase.pending = []) : Tells s t [] :=
  ⟨[], by rw [hlog, List.append_nil], hpending, fun _ => hpending⟩

/-- What is told first comes first. -/
theorem Tells.after {s s' t : Session} {first events : List Event}
    (hfirst : s'.events.toList = s.events.toList ++ first) (h : Tells s' t events) :
    Tells s t (first ++ events) := by
  obtain ⟨told, hlog, hrow, hprompt⟩ := h
  refine ⟨first ++ told, ?_, ?_, hprompt⟩
  · rw [hlog, hfirst, List.append_assoc]
  · rw [List.append_assoc, hrow]

theorem deliver_events (s : Session) (e : Event) :
    (s.deliver e).events.toList = s.events.toList ++ s.plan.sink.keeps [e] := by
  unfold deliver
  split
  · rename_i hsink
    simp [hsink, SinkKind.keeps]
  · rename_i hsink
    simp [hsink, SinkKind.keeps]
  · rename_i hsink
    simp [hsink, SinkKind.keeps, say]

theorem deliver_plan (s : Session) (e : Event) : (s.deliver e).plan = s.plan :=
  congrArg Prod.fst (s.deliver_setting e)

/-- The end of a session that is over tells of nothing. -/
theorem conclude_tells {s : Session} (hfinal : s.state.isFinal = true) :
    Tells s s.conclude [] := by
  rw [conclude_of_final hfinal]
  exact Tells.of_nothing rfl rfl

theorem beginFetch_tells (s : Session) : Tells s s.beginFetch [] := by
  simp only [beginFetch]
  split <;> exact Tells.of_nothing rfl rfl

theorem enter_tells {s : Session} (hs : s.Steady) (next : LoopNext) :
    Tells s (s.enter next) [] := by
  unfold enter
  split
  · exact Tells.of_nothing rfl rfl
  · split
    · exact conclude_tells (hs.final_of_cancelled ‹_›)
    · exact s.beginFetch_tells
  · split
    · exact conclude_tells (hs.final_of_cancelled ‹_›)
    · exact Tells.of_nothing rfl rfl

/-- Whatever the loop makes known reaches the sink or stays in hand, in order. -/
theorem perform_tells {s : Session} (hs : s.Steady) (todo : List Output) (next : LoopNext) :
    Tells s (s.perform todo next) (s.plan.sink.keeps (todo.filterMap Output.event?)) := by
  induction todo generalizing s with
  | nil =>
    rw [List.filterMap_nil, SinkKind.keeps_nil]
    exact enter_tells hs next
  | cons o todo ih =>
    cases o with
    | say line =>
      have hsaid : SameStanding s (s.say .poller line) := ⟨rfl, rfl, rfl, rfl, rfl⟩
      exact ih (hsaid.steady hs)
    | emit event =>
      rw [Output.events_emit]
      simp only [perform]
      split
      · have hrest := ih ((s.deliver_standing event).steady hs)
        rw [deliver_plan] at hrest
        rw [SinkKind.keeps_cons]
        exact hrest.after (s.deliver_events event)
      · rename_i hslow
        rw [SinkKind.keeps_of_slow hslow]
        exact ⟨[], by rw [List.append_nil], rfl, fun hprompt => absurd hprompt hslow⟩

/-! ## A stop -/

theorem abort_events (s : Session) : s.abort.events = s.events := by
  unfold abort; split <;> rfl

/-- A stop tells of itself at once, if the session was not over. -/
theorem stop_events (s : Session) (reason : String) :
    (s.stop reason).events.toList = s.events.toList ++
      s.plan.sink.keeps (if s.state.isFinal then [] else [.cancelled s.appId reason]) := by
  have hlog := abort_events { s with token := (s.token.cancel reason).1 }
  have hplan : { s with token := (s.token.cancel reason).1 }.abort.plan = s.plan :=
    congrArg Prod.fst (abort_setting _)
  by_cases hfinal : s.state.isFinal = true
  · rw [stop_of_final hfinal, if_pos hfinal, SinkKind.keeps_nil, List.append_nil, hlog]
  · rw [stop_of_live (by simpa using hfinal), if_neg hfinal, deliver_events]
    generalize { s with token := (s.token.cancel reason).1 }.abort = t at hlog hplan ⊢
    simp only [say, hlog, hplan]

/-- What the loop has in hand, a stop takes away or leaves. -/
theorem stop_pending (s : Session) (reason : String) :
    (s.stop reason).phase.pending = s.phase.pending ∨ (s.stop reason).phase.pending = [] := by
  rcases (s.stop_stopped reason).phase with h | h
  · exact Or.inl (by rw [h])
  · exact Or.inr (by rw [h]; rfl)

/-! ## The loop's moves -/

/-- The events of what comes to a session. -/
def tidings (s : Session) (o : Option Occurrence) : List Event :=
  o.toList.flatMap (Occurrence.events s.config s.plan.id s.appId (.ofNat s.source.delayMs))

theorem tidings_none (s : Session) : s.tidings none = [] := rfl

theorem takeRecord_tells {s : Session} (hs : s.Steady) (hpolling : s.state = .polling)
    (a : Application) :
    Tells s (s.takeRecord a)
      (s.plan.sink.keeps (FetchResult.events s.config s.appId (.ofNat s.source.delayMs) (.ok a))) := by
  have hlive : s.state.isFinal = false := by rw [hpolling]; rfl
  have hevents := s.recordOutputsOf_events a
  by_cases hterminal : (a.state s.config).any s.config.isTerminal = true
  · rw [takeRecord_of_terminal hlive (hs.unfired_of_polling hpolling) hterminal]
    rw [hterminal] at hevents
    rw [← hevents]
    exact perform_tells (finished_steady (s.published a)) (s.recordOutputsOf a true) _
  · have hother : (a.state s.config).any s.config.isTerminal = false := by simpa using hterminal
    rw [takeRecord_of_progress hlive hother]
    rw [hother] at hevents
    rw [← hevents]
    exact perform_tells (published_steady hs a) (s.recordOutputsOf a false) _

theorem takeResult_tells {s : Session} (hs : s.Steady) (hpolling : s.state = .polling)
    (result : FetchResult) :
    Tells s (s.takeResult result)
      (s.plan.sink.keeps (result.events s.config s.appId (.ofNat s.source.delayMs))) := by
  have htoken := hs.token_of_live (by rw [hpolling]; rfl)
  unfold takeResult
  rw [if_neg (by simp [htoken])]
  cases result with
  | ok a => exact takeRecord_tells hs hpolling a
  | error e =>
    rw [← s.failureOutputs_events e]
    exact perform_tells hs (failureOutputs s.appId e) .rest

theorem answered_delayMs (s : Session) : s.answered.source.delayMs = s.source.delayMs :=
  s.source.answer_delayMs s.appId

theorem finishFetch_tells {s : Session} (hs : s.Sound) (hpolling : s.state = .polling) :
    Tells s s.finishFetch (s.plan.sink.keeps (s.tidings s.fetchOccurrence?)) := by
  have hsame : SameStanding s s.answered := ⟨rfl, rfl, rfl, rfl, rfl⟩
  have hsteady : s.answered.Steady := hsame.steady hs.toSteady
  have hstate : s.answered.state = .polling := hpolling
  rcases hi : s.source.incident? with _ | ⟨reason⟩ | _
  · rw [finishFetch_of_answer hi]
    have h := takeResult_tells hsteady hstate (s.source.answer s.appId).2
    rw [answered_delayMs] at h
    simp only [fetchOccurrence?, hi, tidings, Option.toList_some, List.flatMap_singleton]
    exact h
  · have hfinal := s.answered.stop_isFinal reason
    have hstop := s.answered.stop_events reason
    rw [finishFetch_of_stop hi, takeResult_of_cancelled (s.answered.stop_stopped reason).token]
    rw [if_neg (by simp [hstate, SessionState.isFinal])] at hstop
    have h := (conclude_tells hfinal).after hstop
    rw [List.append_nil] at h
    simp only [fetchOccurrence?, hi, tidings, Option.toList_some, List.flatMap_singleton]
    exact h
  · rw [finishFetch_of_crash hi]
    simp only [fetchOccurrence?, hi, tidings_none, SinkKind.keeps_nil]
    exact Tells.of_nothing rfl rfl

theorem begin_tells {s : Session} (hs : s.Sound) (hready : s.phase = .ready) :
    Tells s s.begin
      (s.plan.sink.keeps (s.tidings (if s.state.isFinal then none else some .began))) := by
  by_cases hfinal : s.state.isFinal = true
  · rw [begin_of_final hs hready hfinal, if_pos hfinal, tidings_none, SinkKind.keeps_nil]
    exact conclude_tells hfinal
  · have hidle := hs.idle_of_ready hready (by simpa using hfinal)
    rw [begin_of_idle hs.toSteady hidle, if_neg hfinal]
    exact perform_tells (running_steady hs.toSteady hidle) [.emit (.started s.plan.id s.appId)] _

-- Again, how long a phase takes is a variable.

theorem finishFetch_later_tells {s : Session} (hs : s.Sound) (hpolling : s.state = .polling)
    (ms : Nat) :
    Tells s (s.later ms).finishFetch (s.plan.sink.keeps (s.tidings s.fetchOccurrence?)) :=
  finishFetch_tells (later_sound hs ms) hpolling

theorem enter_later_tells {s : Session} (hs : s.Sound) (ms : Nat) :
    Tells s ((s.later ms).enter .fetch) [] :=
  enter_tells (later_sound hs ms).toSteady .fetch

theorem perform_later_tells {s : Session} (hs : s.Sound) (event : Event) (todo : List Output)
    (next : LoopNext) (ms : Nat) :
    Tells s (((s.later ms).deliver event).perform todo next)
      (s.plan.sink.keeps (event :: todo.filterMap Output.event?)) := by
  have hsteady := ((s.later ms).deliver_standing event).steady (later_sound hs ms).toSteady
  have hrest := perform_tells hsteady todo next
  rw [deliver_plan] at hrest
  rw [SinkKind.keeps_cons]
  exact hrest.after ((s.later ms).deliver_events event)

/-- One move of the loop tells what it has in hand, and what comes with the move. -/
theorem move_tells {s : Session} (hs : s.Sound) :
    Tells s s.move (s.plan.sink.keeps
      (s.phase.pending ++ s.tidings (if s.state.isFinal then none else s.moveOccurrence?))) := by
  rcases hphase : s.phase with _ | _ | ⟨event, todo, next⟩ | _ | how
  · simp only [move, moveOccurrence?, hphase]
    exact begin_tells hs hphase
  · rcases hs.parked (Or.inl hphase) with ⟨hpolling, htoken⟩ | ⟨hfinal, htoken⟩
    · rw [move_of_fetching hphase htoken, if_neg (by simp [hpolling, SessionState.isFinal])]
      simp only [moveOccurrence?, hphase]
      exact finishFetch_later_tells hs hpolling _
    · rw [move_of_cancelled (Or.inl hphase) htoken, if_pos hfinal, tidings_none]
      simp only [LoopPhase.pending, List.append_nil, SinkKind.keeps_nil]
      exact conclude_tells hfinal
  · simp only [moveOccurrence?, hphase, ite_self, tidings_none, List.append_nil]
    rw [move_of_emitting hphase]
    exact perform_later_tells hs event todo next _
  · simp only [moveOccurrence?, hphase, ite_self, tidings_none, List.append_nil,
      LoopPhase.pending, SinkKind.keeps_nil]
    rcases hs.parked (Or.inr hphase) with ⟨hpolling, htoken⟩ | ⟨hfinal, htoken⟩
    · rw [move_of_resting hphase htoken]
      exact enter_later_tells hs _
    · rw [move_of_cancelled (Or.inr hphase) htoken]
      exact conclude_tells hfinal
  · simp only [move, moveOccurrence?, hphase, ite_self, tidings_none, List.append_nil,
      LoopPhase.pending, SinkKind.keeps_nil]
    exact Tells.of_nothing rfl (by rw [hphase]; rfl)

/-! ## Whatever happens -/

/-- To a sink that takes no time, everything is told as it comes. -/
theorem happen_log {s : Session} (hs : s.Sound) (hprompt : s.plan.sink.delayMs = 0)
    (hempty : s.phase.pending = []) (h : Happening) :
    (s.happen h).events.toList =
        s.events.toList ++ s.plan.sink.keeps (s.tidings (s.occurrence? h)) ∧
      (s.happen h).phase.pending = [] := by
  have hquiet : s.plan.sink.keeps (s.tidings none) = [] := SinkKind.keeps_nil _
  have hstop : ∀ reason, (s.stop reason).events.toList = s.events.toList ++
        s.plan.sink.keeps (s.tidings (if s.state.isFinal then none else some (.stopped reason))) ∧
      (s.stop reason).phase.pending = [] := by
    intro reason
    refine ⟨?_, ?_⟩
    · rw [stop_events]
      split <;> rfl
    · rcases s.stop_pending reason with hp | hp
      · exact hp.trans hempty
      · exact hp
  cases h with
  | clock ms =>
    simp only [occurrence?, ite_self, hquiet, List.append_nil]
    exact ⟨rfl, hempty⟩
  | push entry =>
    simp only [occurrence?, ite_self, hquiet, List.append_nil]
    exact ⟨rfl, hempty⟩
  | release =>
    simp only [occurrence?, ite_self, hquiet, List.append_nil, happen]
    split <;> exact ⟨rfl, hempty⟩
  | move =>
    obtain ⟨told, hlog, hrow, hnone⟩ := move_tells hs
    have hpending : s.move.phase.pending = [] := hnone (by rw [move_plan]; exact hprompt)
    rw [hpending, List.append_nil, hempty, List.nil_append] at hrow
    rw [hrow] at hlog
    exact ⟨hlog, hpending⟩
  | stop reason =>
    simp only [happen, occurrence?]
    by_cases hd : s.isDropped = true
    · rw [if_pos hd, if_pos (hs.final_of_dropped hd), hquiet, List.append_nil]
      exact ⟨rfl, hempty⟩
    · rw [if_neg hd]
      exact hstop reason
  | drop =>
    simp only [happen, occurrence?]
    by_cases hd : s.isDropped = true
    · rw [if_pos hd, if_pos (hs.final_of_dropped hd), hquiet, List.append_nil]
      exact ⟨rfl, hempty⟩
    · rw [if_neg hd]
      exact hstop _

theorem play_pending {s : Session} (hs : s.Sound) (hprompt : s.plan.sink.delayMs = 0)
    (hempty : s.phase.pending = []) (hs' : List Happening) : (s.play hs').phase.pending = [] := by
  induction hs' using List.reverseRecOn with
  | nil => exact hempty
  | append_singleton hs' h ih =>
    rw [play_snoc]
    exact (happen_log (play_sound hs hs') (by rw [play_plan]; exact hprompt) ih h).2

end Session

end Provisioning
