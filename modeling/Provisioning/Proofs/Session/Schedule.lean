-- The fetches of a session that is left alone begin when its timetable says, and a
-- stop leaves out those that were still to come.
import Provisioning.Proofs.Session.Flight
import Provisioning.Proofs.Session.Timetable

namespace Provisioning

/-! ## Where the loop is -/

namespace Timetable

/-- The loop is to go on to something at a certain time, as the timetable says. -/
def Expects (T : Timetable) (s : Session) (time : Nat) : LoopNext → Prop
  | .fetch =>
    s.state = .polling ∧ T.Reaches s.source.completed ∧ time = T.start s.source.completed
  | .rest =>
    s.state = .polling ∧ T.Reaches s.source.completed ∧
      time + T.restMs = T.start s.source.completed
  | .finish _ =>
    s.state = .terminal ∧ ∃ n, s.source.completed = n + 1 ∧ T.Reaches n ∧ T.ends n = true

/-- The loop is where the timetable says. -/
def Holds (T : Timetable) (s : Session) : Prop :=
  match s.phase with
  | .ready => s.state = .idle ∧ s.source.completed = 0 ∧ s.since = 0
  | .fetching => T.Expects s s.since .fetch
  | .emitting event todo next =>
    T.Expects s (s.since + T.emitMs * (event :: todo.filterMap Output.event?).length) next
  | .resting => T.Expects s s.since .rest
  | .ended _ => T.Expects s s.since (.finish .terminal)

/-- How long things take in a session is what the timetable says, and so is what is left of
the script. -/
structure Fits (T : Timetable) (s : Session) : Prop where
  emitMs : s.plan.sink.delayMs = T.emitMs
  restMs : s.plan.restMs = T.restMs
  latencyMs : ∀ n, s.source.latencyMs n = T.latencyMs
  calm : s.source.incidents = []
  told : ∀ n, ((Playback.entryAt s.source.script s.appId n).events s.config s.appId
    (.ofNat T.latencyMs)).length = T.told (s.source.completed + n)
  ends : ∀ n, (Playback.entryAt s.source.script s.appId n).isTerminal s.config =
    T.ends (s.source.completed + n)

/-- A session keeps to its timetable. -/
structure Keeps (T : Timetable) (s : Session) : Prop where
  sound : s.Sound
  one : s.OneFetch
  fits : T.Fits s
  holds : T.Holds s
  past : ∀ k < s.source.completed, T.start k + T.latencyMs ≤ s.since

section
variable {T : Timetable} {s t : Session}

theorem Expects.congr {time : Nat} {next : LoopNext} (h : T.Expects s time next)
    (hstate : t.state = s.state) (hcompleted : t.source.completed = s.source.completed) :
    T.Expects t time next := by
  cases next <;> simpa only [Expects, hstate, hcompleted] using h

theorem Fits.of_same (h : T.Fits s) (hplan : t.plan = s.plan)
    (hsource : t.source = s.source ∨ t.source = s.source.call) : T.Fits t := by
  have happ : t.appId = s.appId := congrArg SessionPlan.appId hplan
  have hconfig : t.config = s.config := congrArg SessionPlan.config hplan
  obtain ⟨hlatency, hincidents, hscript, hcompleted⟩ :
      t.source.latencyMs = s.source.latencyMs ∧ t.source.incidents = s.source.incidents ∧
        t.source.script = s.source.script ∧ t.source.completed = s.source.completed := by
    rcases hsource with hsource | hsource <;> rw [hsource] <;> exact ⟨rfl, rfl, rfl, rfl⟩
  refine ⟨?_, ?_, ?_, ?_, ?_, ?_⟩
  · rw [hplan]
    exact h.emitMs
  · rw [hplan]
    exact h.restMs
  · rw [hlatency]
    exact h.latencyMs
  · rw [hincidents]
    exact h.calm
  · rw [hscript, hcompleted, happ, hconfig]
    exact h.told
  · rw [hscript, hcompleted, happ, hconfig]
    exact h.ends

/-! ## What the loop makes known -/

theorem enter_holds (hs : s.Steady) {next : LoopNext} (h : T.Expects s s.since next) :
    T.Holds (s.enter next) := by
  have htoken : s.state = .polling → s.token.isCancelled = false := by
    intro hpolling
    exact hs.token_of_live (by rw [hpolling]; rfl)
  cases next with
  | fetch =>
    have hphase : s.beginFetch.phase = .fetching := by
      simp only [Session.beginFetch]
      split <;> rfl
    have hstate := s.beginFetch_standing.state
    have hcompleted := s.beginFetch_proceeds.completed
    simp only [Session.enter, htoken h.1, Bool.false_eq_true, if_false]
    unfold Holds
    rw [hphase, Session.beginFetch_since]
    exact h.congr hstate hcompleted
  | rest =>
    simp only [Session.enter, htoken h.1, Bool.false_eq_true, if_false]
    exact h
  | finish outcome => exact h

/-- Making things known takes the time that the timetable has for it. -/
theorem perform_holds (hs : s.Steady) (hemit : s.plan.sink.delayMs = T.emitMs)
    (todo : List Output) {next : LoopNext}
    (h : T.Expects s (s.since + T.emitMs * (todo.filterMap Output.event?).length) next) :
    T.Holds (s.perform todo next) := by
  induction todo generalizing s with
  | nil => exact enter_holds hs h
  | cons o todo ih =>
    cases o with
    | say line =>
      have hsaid : Session.SameStanding s (s.say .poller line) := ⟨rfl, rfl, rfl, rfl, rfl⟩
      exact ih (hsaid.steady hs) hemit h
    | emit event =>
      simp only [Session.perform]
      split
      · rename_i hprompt
        have hstanding := s.deliver_standing event
        apply ih (hstanding.steady hs)
        · rw [s.deliver_plan]
          exact hemit
        · rw [Session.deliver_since]
          rw [← hemit, hprompt, Nat.zero_mul] at h ⊢
          exact h.congr hstanding.state (congrArg Playback.completed (s.deliver_source event))
      · exact h

/-! ## The end of a fetch -/

theorem Fits.answered (h : T.Fits s) : T.Fits s.answered := by
  have hscript := s.source.entryAt_of_answer s.appId
  have hcompleted : s.answered.source.completed = s.source.completed + 1 :=
    s.source.answer_completed s.appId
  have hlatency : s.answered.source.latencyMs = s.source.latencyMs := by
    simp only [Session.answered, Playback.answer]
    split <;> rfl
  refine ⟨h.emitMs, h.restMs, ?_, ?_, ?_, ?_⟩
  · rw [hlatency]
    exact h.latencyMs
  · exact (s.source.answer_incidents s.appId).trans h.calm
  · intro n
    have htold := h.told (n + 1)
    rw [← hscript n] at htold
    rw [hcompleted, Nat.add_assoc, Nat.add_comm 1 n]
    exact htold
  · intro n
    have hends := h.ends (n + 1)
    rw [← hscript n] at hends
    rw [hcompleted, Nat.add_assoc, Nat.add_comm 1 n]
    exact hends

/-- A result is told for as long as the timetable says, and then the loop rests or, after a
terminal record, ends. -/
theorem takeResult_holds {k : Nat} {result : FetchResult} (hs : s.Steady)
    (hpolling : s.state = .polling) (hemit : s.plan.sink.delayMs = T.emitMs)
    (hcompleted : s.source.completed = k + 1) (hreaches : T.Reaches k) (hsince : s.since = T.start k + T.latencyMs)
    (htold : (result.events s.config s.appId (.ofNat s.source.delayMs)).length = T.told k)
    (hends : result.isTerminal s.config = T.ends k) :
    T.Holds (s.takeResult result) := by
  have hlive : s.state.isFinal = false := by rw [hpolling]; rfl
  have hrests : T.ends k = false → T.Expects s (s.since + T.emitMs * T.told k) .rest := by
    intro hgoes
    refine ⟨hpolling, ?_, ?_⟩
    · rw [hcompleted]
      exact hreaches.succ hgoes
    · rw [hcompleted, hsince, start]
  unfold Session.takeResult
  rw [if_neg (by simp [hs.token_of_live hlive])]
  cases result with
  | error e =>
    apply perform_holds hs hemit
    rw [s.failureOutputs_events e (.ofNat s.source.delayMs), htold]
    exact hrests hends.symm
  | ok a =>
    have hevents := s.recordOutputsOf_events a
    have hterminal : (a.state s.config).any s.config.isTerminal = T.ends k := hends
    cases hend : T.ends k with
    | true =>
      rw [hend] at hterminal
      dsimp only
      rw [Session.takeRecord_of_terminal hlive (hs.unfired_of_polling hpolling) hterminal]
      exact perform_holds (Session.finished_steady (s.published a)) hemit _
        ⟨rfl, k, hcompleted, hreaches, hend⟩
    | false =>
      rw [hend] at hterminal
      rw [hterminal] at hevents
      dsimp only
      rw [Session.takeRecord_of_progress hlive hterminal]
      apply perform_holds (Session.published_steady hs a) hemit
      rw [hevents, htold]
      exact hrests hend

theorem finishFetch_keeps (hs : s.Steady) (hfits : T.Fits s) (hpolling : s.state = .polling)
    (hreaches : T.Reaches s.source.completed)
    (hsince : s.since = T.start s.source.completed + T.latencyMs) :
    T.Fits s.finishFetch ∧ T.Holds s.finishFetch ∧
      s.finishFetch.source.completed = s.source.completed + 1 := by
  have hincident : s.source.incident? = none := by simp [Playback.incident?, hfits.calm]
  have hsame : Session.SameStanding s s.answered := ⟨rfl, rfl, rfl, rfl, rfl⟩
  have hcompleted : s.answered.source.completed = s.source.completed + 1 :=
    s.source.answer_completed s.appId
  have hdelay : s.answered.source.delayMs = T.latencyMs :=
    s.answered_delayMs.trans (hfits.latencyMs _)
  rw [Session.finishFetch_of_answer hincident]
  obtain ⟨hsource, -⟩ := s.answered.takeResult_rests (s.source.answer s.appId).2
  refine ⟨?_, ?_, ?_⟩
  · apply hfits.answered.of_same _ (.inl hsource)
    exact congrArg Prod.fst (Session.takeResult_setting _ _)
  · rw [s.source.answer_eq_entryAt]
    apply takeResult_holds (hsame.steady hs) hpolling hfits.emitMs hcompleted hreaches hsince
    · rw [hdelay]
      exact hfits.told 0
    · exact hfits.ends 0
  · rw [hsource, hcompleted]

/-! ## The loop's moves -/

theorem Fits.of_proceeds (h : T.Fits s) (hplan : t.plan = s.plan) (hgoes : Session.Proceeds s t) :
    T.Fits t := by
  apply h.of_same hplan
  rw [hgoes]
  split
  · exact .inr rfl
  · exact .inl rfl

/-- What stays of a timetable with each move. -/
structure Moves (T : Timetable) (t : Session) : Prop where
  fits : T.Fits t
  holds : T.Holds t
  past : ∀ k < t.source.completed, T.start k + T.latencyMs ≤ t.since

/-- A move of the loop that ends no fetch. -/
theorem Keeps.moves (h : T.Keeps s) (hplan : t.plan = s.plan) (hgoes : Session.Proceeds s t)
    (hsince : s.since ≤ t.since) (hholds : T.Holds t) : T.Moves t := by
  refine ⟨h.fits.of_proceeds hplan hgoes, hholds, ?_⟩
  intro k hk
  rw [hgoes.completed] at hk
  exact Nat.le_trans (h.past k hk) hsince

theorem begin_moves (h : T.Keeps s) (hphase : s.phase = .ready) : T.Moves s.begin := by
  have hholds := h.holds
  simp only [Holds, hphase] at hholds
  obtain ⟨hidle, hcompleted, hsince⟩ := hholds
  have hsteady := Session.running_steady h.sound.toSteady hidle
  have hbegin := Session.begin_of_idle h.sound.toSteady hidle
  have hexpects : T.Expects s.running (s.running.since + T.emitMs * 1) .fetch := by
    have hnone : s.running.source.completed = 0 := hcompleted
    have hstart : s.running.since = 0 := hsince
    refine ⟨rfl, ?_, ?_⟩
    · rw [hnone]
      intro i hi
      omega
    · rw [hnone, hstart, start]
      omega
  apply h.moves (congrArg Prod.fst s.begin_setting)
  · rw [hbegin]
    exact s.running.perform_proceeds _ _
  · exact Nat.le_of_eq s.begin_since.symm
  · rw [hbegin]
    exact perform_holds hsteady h.fits.emitMs _ hexpects

-- How long a phase takes is a variable here too.

theorem finishFetch_later_moves (h : T.Keeps s) (hphase : s.phase = .fetching) {ms : Nat}
    (hms : ms = T.latencyMs) : T.Moves (s.later ms).finishFetch := by
  have hholds := h.holds
  simp only [Holds, hphase] at hholds
  obtain ⟨hpolling, hreaches, hsince⟩ := hholds
  have hover : (s.later ms).since = T.start s.source.completed + T.latencyMs := by
    rw [← hsince, ← hms]
    rfl
  have hfits : T.Fits (s.later ms) := h.fits.of_same rfl (.inl rfl)
  obtain ⟨hfits', hholds', hcompleted⟩ :=
    finishFetch_keeps (Session.later_sound h.sound ms).toSteady hfits hpolling hreaches hover
  refine ⟨hfits', hholds', ?_⟩
  intro k hk
  rw [hcompleted] at hk
  rw [Session.finishFetch_since, hover]
  have hle := start_mono (T := T) (Nat.le_of_lt_succ hk)
  exact Nat.add_le_add_right hle _

theorem perform_later_moves (h : T.Keeps s) {event : Event} {todo : List Output} {next : LoopNext}
    (hphase : s.phase = .emitting event todo next) {ms : Nat} (hms : ms = T.emitMs) :
    T.Moves (((s.later ms).deliver event).perform todo next) := by
  have hholds := h.holds
  simp only [Holds, hphase] at hholds
  have hstanding := (s.later ms).deliver_standing event
  have hsource := (s.later ms).deliver_source event
  have hplan := (s.later ms).deliver_plan event
  have hsteady := hstanding.steady (Session.later_sound h.sound ms).toSteady
  have hemit : ((s.later ms).deliver event).plan.sink.delayMs = T.emitMs := by
    rw [hplan]
    exact h.fits.emitMs
  have hsince : ((s.later ms).deliver event).since = s.since + T.emitMs := by
    rw [Session.deliver_since, ← hms]
    rfl
  apply h.moves
  · exact (congrArg Prod.fst (Session.perform_setting _ _ _)).trans hplan
  · have hgoes := ((s.later ms).deliver event).perform_proceeds todo next
    rw [Session.Proceeds, hsource] at hgoes
    exact hgoes
  · rw [Session.perform_since, hsince]
    exact Nat.le_add_right _ _
  · apply perform_holds hsteady hemit
    rw [hsince]
    rw [List.length_cons, Nat.mul_add, Nat.mul_one, Nat.add_comm (T.emitMs * _), ← Nat.add_assoc]
      at hholds
    exact hholds.congr hstanding.state (congrArg Playback.completed hsource)

theorem enter_later_moves (h : T.Keeps s) (hphase : s.phase = .resting) {ms : Nat}
    (hms : ms = T.restMs) : T.Moves ((s.later ms).enter .fetch) := by
  have hholds := h.holds
  simp only [Holds, hphase] at hholds
  obtain ⟨hpolling, hreaches, hsince⟩ := hholds
  apply h.moves
  · exact congrArg Prod.fst ((s.later ms).enter_setting .fetch)
  · exact (s.later ms).enter_proceeds .fetch
  · rw [Session.enter_since]
    exact Nat.le_add_right _ _
  · apply enter_holds (Session.later_sound h.sound ms).toSteady
    refine ⟨hpolling, hreaches, ?_⟩
    rw [← hms] at hsince
    exact hsince

theorem move_moves (h : T.Keeps s) : T.Moves s.move := by
  have hholds := h.holds
  rcases hphase : s.phase with _ | _ | ⟨event, todo, next⟩ | _ | how
  · simp only [Session.move, hphase]
    exact begin_moves h hphase
  · simp only [Holds, hphase] at hholds
    have hopen := h.sound.token_of_live (by rw [hholds.1]; rfl)
    rw [Session.move_of_fetching hphase hopen]
    exact finishFetch_later_moves h hphase (h.fits.latencyMs _)
  · rw [Session.move_of_emitting hphase]
    exact perform_later_moves h hphase h.fits.emitMs
  · simp only [Holds, hphase] at hholds
    have hopen := h.sound.token_of_live (by rw [hholds.1]; rfl)
    rw [Session.move_of_resting hphase hopen]
    exact enter_later_moves h hphase h.fits.restMs
  · simp only [Session.move, hphase]
    exact ⟨h.fits, h.holds, h.past⟩

/-- Every move keeps to the timetable. -/
theorem move_keeps (h : T.Keeps s) : T.Keeps s.move where
  sound := (Session.happen_spec h.sound .move).1
  one := Session.happen_oneFetch h.sound h.one .move
  fits := (move_moves h).fits
  holds := (move_moves h).holds
  past := (move_moves h).past

end

end Timetable

end Provisioning
