-- A session that nothing holds up and nobody stops: each move of its loop begins a fetch
-- or ends one, until a terminal record comes. So the number of moves tells which results
-- have come, and how late it is at most.
import Provisioning.Proofs.Fetch.Script
import Provisioning.Proofs.Session.FetchTimes

namespace Provisioning

/-! ## The source -/

namespace Playback

theorem answer_latencyMs (p : Playback) (appId : String) :
    (p.answer appId).1.latencyMs = p.latencyMs := by
  unfold answer
  dsimp only
  split <;> rfl

/-- A source that does nothing but answer, in limited time. -/
structure Quick (limit : Nat) (p : Playback) : Prop where
  calm : p.incidents = []
  latency : ∀ n, p.latencyMs n ≤ limit

theorem Quick.call {limit : Nat} {p : Playback} (h : p.Quick limit) : p.call.Quick limit :=
  ⟨h.calm, h.latency⟩

theorem Quick.answer {limit : Nat} {p : Playback} (h : p.Quick limit) (appId : String) :
    (p.answer appId).1.Quick limit where
  calm := by rw [p.answer_incidents, h.calm]
  latency := by
    rw [p.answer_latencyMs]
    exact h.latency

end Playback

/-! ## Where a move leads -/

/-- What the loop is about once it has gone on to this. -/
def LoopNext.phase : LoopNext → LoopPhase
  | fetch => .fetching
  | rest => .resting
  | finish outcome => .ended (.finished outcome)

namespace Session

/-- With a sink that takes no time, the loop goes on at once. -/
theorem perform_phase {s : Session} (hsink : s.plan.sink.delayMs = 0)
    (htoken : s.token.isCancelled = false) (todo : List Output) (next : LoopNext) :
    (s.perform todo next).phase = next.phase := by
  induction todo generalizing s with
  | nil =>
    cases next with
    | fetch =>
      simp only [perform, enter, htoken, Bool.false_eq_true, if_false, beginFetch]
      split <;> rfl
    | rest =>
      simp only [perform, enter, htoken, Bool.false_eq_true, if_false]
      rfl
    | finish outcome => rfl
  | cons o todo ih =>
    cases o with
    | say line => exact ih hsink htoken
    | emit event =>
      simp only [perform, hsink, if_true]
      apply ih
      · rw [deliver_plan, hsink]
      · rw [(s.deliver_standing event).token, htoken]

theorem begin_leads {s : Session} (hs : s.Sound) (hidle : s.state = .idle)
    (hsink : s.plan.sink.delayMs = 0) :
    s.begin.phase = .fetching ∧ s.begin.source = s.source.call := by
  have htoken := hs.token_of_live (by rw [hidle]; rfl)
  have hphase : s.begin.phase = .fetching := by
    rw [begin_of_idle hs.toSteady hidle]
    exact perform_phase (s := s.running) hsink htoken _ .fetch
  refine ⟨hphase, ?_⟩
  have hgoes := s.running.perform_proceeds [.emit (.started s.plan.id s.appId)] .fetch
  rw [← begin_of_idle hs.toSteady hidle, Proceeds, if_pos hphase] at hgoes
  exact hgoes

/-- A result leads to a rest, or to the end if it is a terminal record. -/
theorem takeResult_phase {s : Session} (hs : s.Steady) (hpolling : s.state = .polling)
    (hsink : s.plan.sink.delayMs = 0) (result : FetchResult) :
    (s.takeResult result).phase =
      if result.isTerminal s.config then .ended (.finished .terminal) else .resting := by
  have hlive : s.state.isFinal = false := by rw [hpolling]; rfl
  have htoken := hs.token_of_live hlive
  unfold takeResult
  rw [if_neg (by simp [htoken])]
  cases result with
  | error e => exact perform_phase hsink htoken _ .rest
  | ok a =>
    have hsame : FetchResult.isTerminal s.config (.ok a) =
        (a.state s.config).any s.config.isTerminal := rfl
    by_cases hterminal : (a.state s.config).any s.config.isTerminal = true
    · dsimp only
      rw [takeRecord_of_terminal hlive (hs.unfired_of_polling hpolling) hterminal, hsame,
        if_pos hterminal]
      exact perform_phase (s := (s.published a).finished) hsink htoken _ (.finish .terminal)
    · dsimp only
      rw [takeRecord_of_progress hlive (by simpa using hterminal), hsame, if_neg hterminal]
      exact perform_phase (s := s.published a) hsink htoken _ .rest

-- How long a phase takes is a variable in the next two lemmas.

theorem finishFetch_later_leads {s : Session} (hs : s.Sound) (hpolling : s.state = .polling)
    (hsink : s.plan.sink.delayMs = 0) (hcalm : s.source.incidents = []) (ms : Nat) :
    (s.later ms).finishFetch.source = (s.source.answer s.appId).1 ∧
      (s.later ms).finishFetch.phase =
        if (s.source.answer s.appId).2.isTerminal s.config then .ended (.finished .terminal)
        else .resting := by
  have hincident : (s.later ms).source.incident? = none := by
    simp [Playback.incident?, later, hcalm]
  have hsame : SameStanding s (s.later ms).answered := ⟨rfl, rfl, rfl, rfl, rfl⟩
  rw [finishFetch_of_answer hincident]
  obtain ⟨hsource, -⟩ := (s.later ms).answered.takeResult_rests (s.source.answer s.appId).2
  exact ⟨hsource, takeResult_phase (hsame.steady hs.toSteady) hpolling hsink _⟩

theorem enter_later_leads {s : Session} (hs : s.Sound) (hpolling : s.state = .polling)
    (hsink : s.plan.sink.delayMs = 0) (ms : Nat) :
    ((s.later ms).enter .fetch).phase = .fetching ∧
      ((s.later ms).enter .fetch).source = s.source.call := by
  have htoken := hs.token_of_live (by rw [hpolling]; rfl)
  have hphase : ((s.later ms).enter .fetch).phase = .fetching :=
    perform_phase (s := s.later ms) hsink htoken [] .fetch
  have hgoes := (s.later ms).enter_proceeds .fetch
  rw [Proceeds, if_pos hphase] at hgoes
  exact ⟨hphase, hgoes⟩

/-! ## On the way -/

/-- A session on its way to a record: the results of the fetches that have ended, and those
that come before that record. Each fetch and each rest has taken limited time. -/
structure Heading (limit : Nat) (done todo : List FetchResult) (a : Application) (s : Session) :
    Prop extends s.Sound where
  live : s.state.isFinal = false
  waits : s.phase = .ready ∨ s.phase = .fetching ∨ s.phase = .resting
  sink : s.plan.sink.delayMs = 0
  quick : s.source.Quick limit
  script : ∃ later, s.source.script = todo ++ .ok a :: later
  navigator : s.latch = { navigator := .newChannel }
  since_le : s.since + (if s.phase = .resting then s.plan.restMs else 0) ≤
    done.length * (s.plan.restMs + limit)

/-- A session that the terminal record has ended. -/
structure Arrived (s : Session) : Prop where
  state : s.state = .terminal
  phase : s.phase = .ended (.finished .terminal)
  navigator : s.latch.navigator = .channel [.view s.appId] true

variable {limit : Nat} {done todo : List FetchResult} {a : Application} {s t : Session}

theorem Heading.polling (h : s.Heading limit done todo a)
    (hphase : s.phase = .fetching ∨ s.phase = .resting) :
    s.state = .polling ∧ s.token.isCancelled = false := by
  rcases h.toSound.parked hphase with hpolling | ⟨hfinal, -⟩
  · exact hpolling
  · rw [h.live] at hfinal
    contradiction

/-- The next move is due before the fetch that is under way or to come has taken all the
time that it may. -/
theorem Heading.due_le (h : s.Heading limit done todo a) :
    ∃ due, s.due? = some due ∧ due ≤ done.length * (s.plan.restMs + limit) + limit := by
  have hsince := h.since_le
  have htoken := h.toSound.token_of_live h.live
  rcases h.waits with hphase | hphase | hphase
  · refine ⟨s.since, by simp [due?, hphase], ?_⟩
    omega
  · have hlatency : s.source.delayMs ≤ limit := h.quick.latency s.source.calls
    refine ⟨s.since + s.source.delayMs, by simp [due?, hphase, htoken], ?_⟩
    omega
  · rw [if_pos hphase] at hsince
    refine ⟨s.since + s.plan.restMs, by simp [due?, hphase, htoken], ?_⟩
    omega

/-- A fetch that begins leaves the session on its way. -/
theorem Heading.fetch (h : s.Heading limit done todo a) (hsound : t.Sound)
    (hlive : t.state.isFinal = false) (hplan : t.plan = s.plan) (hlatch : t.latch = s.latch)
    (hphase : t.phase = .fetching) (hsource : t.source = s.source.call)
    (hsince : t.since ≤ done.length * (s.plan.restMs + limit)) :
    t.Heading limit done todo a where
  toSound := hsound
  live := hlive
  waits := Or.inr (Or.inl hphase)
  sink := by rw [hplan, h.sink]
  quick := by
    rw [hsource]
    exact h.quick.call
  script := by
    rw [hsource]
    exact h.script
  navigator := by rw [hlatch, h.navigator]
  since_le := by
    rw [if_neg (by simp [hphase]), hplan]
    exact hsince

theorem Heading.move_of_ready (h : s.Heading limit done todo a) (hready : s.phase = .ready) :
    s.move.Heading limit done todo a ∧ s.move.phase = .fetching ∧
      (s.occurrence? .move).bind Occurrence.result? = none := by
  have hidle := h.toSound.idle_of_ready hready h.live
  have hmove : s.move = s.begin := by simp only [move, hready]
  have hoccurs : s.occurrence? .move = some .began := by
    simp only [occurrence?, h.live, Bool.false_eq_true, if_false, moveOccurrence?, hready]
  obtain ⟨hsound, heffect⟩ := happen_spec h.toSound .move
  change s.move.Sound at hsound
  change Effect s s.move _ at heffect
  rw [hoccurs] at heffect
  obtain ⟨hphase, hsource⟩ := begin_leads h.toSound hidle h.sink
  rw [← hmove] at hphase hsource
  have hsince := h.since_le
  refine ⟨?_, hphase, by rw [hoccurs]; rfl⟩
  cases heffect with
  | began idle state latest latch =>
    apply h.fetch hsound (by rw [state]; rfl) s.move_plan latch hphase hsource
    rw [hmove, begin_since]
    omega

theorem Heading.move_of_resting (h : s.Heading limit done todo a) (hresting : s.phase = .resting) :
    s.move.Heading limit done todo a ∧ s.move.phase = .fetching ∧
      (s.occurrence? .move).bind Occurrence.result? = none := by
  obtain ⟨hpolling, htoken⟩ := h.polling (Or.inr hresting)
  have hoccurs : s.occurrence? .move = none := by
    simp only [occurrence?, moveOccurrence?, hresting, ite_self]
  obtain ⟨hsound, heffect⟩ := happen_spec h.toSound .move
  change s.move.Sound at hsound
  change Effect s s.move _ at heffect
  rw [hoccurs] at heffect
  have hleads : s.move.phase = .fetching ∧ s.move.source = s.source.call := by
    rw [Session.move_of_resting hresting htoken]
    exact enter_later_leads h.toSound hpolling h.sink _
  have hdue : s.due? = some (s.since + s.plan.restMs) := by simp [due?, hresting, htoken]
  have hsince := h.since_le
  rw [if_pos hresting] at hsince
  refine ⟨?_, hleads.1, by rw [hoccurs]; rfl⟩
  cases heffect with
  | quiet state latest latch =>
    apply h.fetch hsound (by rw [state, hpolling]; rfl) s.move_plan latch hleads.1 hleads.2
    rw [move_since hdue]
    exact hsince

/-- What the end of a fetch comes to. -/
structure FetchEnds (s : Session) (result : FetchResult) : Prop where
  occurs : s.occurrence? .move = some (.arrived result)
  source : s.move.source = (s.source.answer s.appId).1
  phase : s.move.phase =
    if result.isTerminal s.config then .ended (.finished .terminal) else .resting

theorem Heading.ends (h : s.Heading limit done todo a) (hfetching : s.phase = .fetching)
    {result : FetchResult} {rest : List FetchResult} (hscript : s.source.script = result :: rest) :
    FetchEnds s result := by
  obtain ⟨hpolling, htoken⟩ := h.polling (Or.inl hfetching)
  have hanswer := s.source.answer_of_cons s.appId hscript
  have hleads := finishFetch_later_leads h.toSound hpolling h.sink h.quick.calm s.source.delayMs
  rw [← move_of_fetching hfetching htoken, hanswer] at hleads
  refine ⟨?_, hleads.1, hleads.2⟩
  have hincident : s.source.incident? = none := by simp [Playback.incident?, h.quick.calm]
  simp only [occurrence?, h.live, Bool.false_eq_true, if_false, moveOccurrence?, hfetching,
    fetchOccurrence?, hincident, hanswer]

/-- The end of a fetch that brings no terminal record is followed by a rest. -/
theorem Heading.move_of_fetching {result : FetchResult}
    (h : s.Heading limit done (result :: todo) a) (hfetching : s.phase = .fetching)
    (hother : result.isTerminal s.config = false) :
    s.move.Heading limit (done ++ [result]) todo a ∧ s.move.phase = .resting ∧
      (s.occurrence? .move).bind Occurrence.result? = some result := by
  obtain ⟨later, hscript⟩ := h.script
  have hends := h.ends hfetching hscript
  have hphase := hends.phase
  rw [if_neg (by simp [hother])] at hphase
  obtain ⟨hsound, heffect⟩ := happen_spec h.toSound .move
  change s.move.Sound at hsound
  change Effect s s.move _ at heffect
  rw [hends.occurs] at heffect
  have hkept : s.move.state = .polling ∧ s.move.latch = s.latch := by
    cases heffect with
    | failed e polling state latest latch => exact ⟨state, latch⟩
    | progressed a time polling terminal state latest latch => exact ⟨state, latch⟩
    | reached a time polling terminal state latest latch =>
      have hterminal : FetchResult.isTerminal s.config (.ok a) = true := terminal
      rw [hother] at hterminal
      contradiction
  refine ⟨?_, hphase, by rw [hends.occurs]; rfl⟩
  exact {
    toSound := hsound
    live := by rw [hkept.1]; rfl
    waits := Or.inr (Or.inr hphase)
    sink := by rw [move_plan, h.sink]
    quick := by
      rw [hends.source]
      exact h.quick.answer s.appId
    script := by
      refine ⟨later, ?_⟩
      rw [hends.source]
      rw [s.source.script_answer s.appId, hscript]
      simp
    navigator := by rw [hkept.2, h.navigator]
    since_le := by
      have htoken := h.toSound.token_of_live h.live
      have hdue : s.due? = some (s.since + s.source.delayMs) := by
        simp [due?, hfetching, htoken]
      have hlatency : s.source.delayMs ≤ limit := h.quick.latency s.source.calls
      have hsince := h.since_le
      rw [if_pos hphase, move_since hdue, move_plan, List.length_append, List.length_singleton,
        Nat.succ_mul]
      omega }

/-- The terminal record ends the session. -/
theorem Heading.move_of_last (h : s.Heading limit done [] a) (hfetching : s.phase = .fetching)
    (hterminal : FetchResult.isTerminal s.config (.ok a) = true) :
    s.move.Arrived ∧ (s.occurrence? .move).bind Occurrence.result? = some (.ok a) := by
  obtain ⟨later, hscript⟩ := h.script
  have hends := h.ends hfetching hscript
  have hphase := hends.phase
  rw [if_pos hterminal] at hphase
  obtain ⟨-, heffect⟩ := happen_spec h.toSound .move
  change Effect s s.move _ at heffect
  rw [hends.occurs] at heffect
  refine ⟨?_, by rw [hends.occurs]; rfl⟩
  cases heffect with
  | progressed a time polling terminal state latest latch =>
    have hother : FetchResult.isTerminal s.config (.ok a) = false := terminal
    rw [hterminal] at hother
    contradiction
  | reached a time polling terminal state latest latch =>
    refine ⟨state, hphase, ?_⟩
    have happ : s.move.appId = s.appId := congrArg SessionPlan.appId s.move_plan
    rw [latch, h.navigator, happ]
    rfl

/-! ## After a number of moves -/

/-- Where a session is after some moves, and the results by then: every move begins a fetch
or ends one. -/
inductive Course (limit : Nat) (before : List FetchResult) (a : Application) (s : Session)
    (moves : Nat) : List FetchResult → Prop
  | heading (done todo : List FetchResult) (split : before = done ++ todo)
      (h : s.Heading limit done todo a)
      (count : moves = 2 * done.length + if s.phase = .fetching then 1 else 0) :
      Course limit before a s moves done
  | arrived (h : s.Arrived) (count : 2 * (before.length + 1) ≤ moves) :
      Course limit before a s moves (before ++ [.ok a])

theorem Course.move {before results : List FetchResult} {moves : Nat}
    (h : Course limit before a s moves results)
    (hother : ∀ r ∈ before, r.isTerminal s.config = false)
    (hterminal : FetchResult.isTerminal s.config (.ok a) = true) :
    Course limit before a s.move (moves + 1)
      (results ++ ((s.occurrence? .move).bind Occurrence.result?).toList) := by
  cases h with
  | heading _ todo hbefore h hcount =>
    rcases h.waits with hphase | hphase | hphase
    · obtain ⟨hnext, hfetching, hnone⟩ := h.move_of_ready hphase
      rw [hnone, Option.toList_none, List.append_nil]
      refine .heading results todo hbefore hnext ?_
      rw [if_neg (by simp [hphase])] at hcount
      rw [if_pos hfetching, hcount]
    · rw [if_pos hphase] at hcount
      cases todo with
      | nil =>
        obtain ⟨harrived, hsome⟩ := h.move_of_last hphase hterminal
        rw [List.append_nil] at hbefore
        rw [hsome, Option.toList_some, ← hbefore]
        refine .arrived harrived ?_
        rw [hbefore]
        omega
      | cons r todo =>
        have hr : r.isTerminal s.config = false := hother r (by simp [hbefore])
        obtain ⟨hnext, hresting, hsome⟩ := h.move_of_fetching hphase hr
        rw [hsome, Option.toList_some]
        refine .heading (results ++ [r]) todo (by simp [hbefore]) hnext ?_
        rw [if_neg (by simp [hresting]), List.length_append, List.length_singleton]
        omega
    · obtain ⟨hnext, hfetching, hnone⟩ := h.move_of_resting hphase
      rw [hnone, Option.toList_none, List.append_nil]
      refine .heading results todo hbefore hnext ?_
      rw [if_neg (by simp [hphase])] at hcount
      rw [if_pos hfetching, hcount]
  | arrived h hcount =>
    have hmove : s.move = s := by simp only [Session.move, h.phase]
    have hnone : s.occurrence? .move = none := by
      simp only [occurrence?, h.state, SessionState.isFinal, if_true]
    rw [hmove, hnone, Option.bind_none, Option.toList_none, List.append_nil]
    exact .arrived h (by omega)

/-- Moves one after another lead through the results up to the terminal record, and no
further. -/
theorem Course.play_moves {before : List FetchResult}
    (h : s.Heading limit [] before a) (hready : s.phase = .ready)
    (hother : ∀ r ∈ before, r.isTerminal s.config = false)
    (hterminal : FetchResult.isTerminal s.config (.ok a) = true) (moves : Nat) :
    Course limit before a (s.play (List.replicate moves .move)) moves
      (s.results (List.replicate moves .move)) := by
  induction moves with
  | zero =>
    refine .heading [] before rfl h ?_
    rw [List.replicate_zero, play_nil, if_neg (by simp [hready])]
    rfl
  | succ moves ih =>
    rw [List.replicate_succ', play_snoc, results_snoc]
    apply ih.move
    · rw [play_config]
      exact hother
    · rw [play_config]
      exact hterminal

/-! ## From the start to the end -/

/-- A session that has just been started, on a script with a terminal record in it. -/
structure SetsOut (limit : Nat) (before : List FetchResult) (a : Application) (s : Session) :
    Prop where
  heading : s.Heading limit [] before a
  ready : s.phase = .ready
  latest : s.latest = {}
  landed : s.source.calls = 0 ∧ s.source.completed = 0
  before_other : ∀ r ∈ before, r.isTerminal s.config = false
  terminal : FetchResult.isTerminal s.config (.ok a) = true

variable {before : List FetchResult}

/-- Whatever valid configuration it has, a session sets out if its sink takes no time and its
source is quick. -/
theorem Started.setsOut {config : Config} {appId : String} {source : Playback} {sink : SinkKind}
    {later : List FetchResult} (h : s.Started config appId source .newChannel sink)
    (hsince : s.since = 0) (hsink : sink.delayMs = 0) (hquick : source.Quick limit)
    (hlanded : source.calls = 0 ∧ source.completed = 0)
    (hscript : source.script = before ++ .ok a :: later)
    (hother : ∀ r ∈ before, r.isTerminal config = false)
    (hterminal : FetchResult.isTerminal config (.ok a) = true) : s.SetsOut limit before a where
  heading := {
    toSound := h.toSound
    live := by rw [h.idle]; rfl
    waits := Or.inl h.phase
    sink := by rw [h.sink_eq, hsink]
    quick := by rw [h.source_eq]; exact hquick
    script := by
      rw [h.source_eq]
      exact ⟨later, hscript⟩
    navigator := h.latch
    since_le := by simp [hsince, h.phase] }
  ready := h.phase
  latest := h.latest
  landed := by rw [h.source_eq]; exact hlanded
  before_other := by rw [h.config_eq]; exact hother
  terminal := by rw [h.config_eq]; exact hterminal

theorem SetsOut.course (h : s.SetsOut limit before a) (moves : Nat) :
    Course limit before a (s.play (List.replicate moves .move)) moves
      (s.results (List.replicate moves .move)) :=
  .play_moves h.heading h.ready h.before_other h.terminal moves

/-- A loop that has ended has ended with the terminal record. -/
theorem Course.arrived_of_ended {moves : Nat} {results : List FetchResult}
    (h : Course limit before a s moves results) (hended : s.phase.isEnded = true) :
    s.Arrived ∧ results = before ++ [.ok a] := by
  cases h with
  | heading _ todo split h count =>
    rcases h.waits with hphase | hphase | hphase
    · rw [hphase] at hended
      contradiction
    · rw [hphase] at hended
      contradiction
    · rw [hphase] at hended
      contradiction
  | arrived h count => exact ⟨h, rfl⟩

theorem Course.done_le {done todo : List FetchResult} (split : before = done ++ todo) :
    done.length ≤ before.length := by
  rw [split, List.length_append]
  exact Nat.le_add_right _ _

/-- Two moves for each fetch are enough. -/
theorem Course.arrived_of_count {moves : Nat} {results : List FetchResult}
    (h : Course limit before a s moves results) (hcount : 2 * (before.length + 1) ≤ moves) :
    s.Arrived := by
  cases h with
  | heading _ todo split h count =>
    have hle := done_le split
    split at count <;> omega
  | arrived h count => exact h

/-- So is the time for one fetch and one rest each. -/
theorem SetsOut.arrived_of_runWhile (h : s.SetsOut limit before a) {time : Nat}
    (htime : (before.length + 1) * (s.plan.restMs + limit) < time) :
    (s.runWhile (fun _ => true) time).Arrived := by
  obtain ⟨n, hn⟩ := exists_play_runWhile (fun _ => true) time s
  have hlate : ∀ due, (s.runWhile (fun _ => true) time).due? = some due → time ≤ due := by
    intro due hdue
    have hnot := runWhile_not_due _ _ s hdue
    simpa using hnot
  have hcourse := h.course n
  rw [hn] at hlate ⊢
  generalize s.results (List.replicate n .move) = results at hcourse
  cases hcourse with
  | heading _ todo split h count =>
    obtain ⟨due, hdue, hle⟩ := h.due_le
    have hmono := Nat.mul_le_mul_right (s.plan.restMs + limit) (Course.done_le split)
    have := hlate due hdue
    rw [play_plan] at hle
    rw [Nat.succ_mul] at htime
    omega
  | arrived h count => exact h

/-- By the end, as many fetches have begun as results have come. -/
theorem SetsOut.calls_of_arrived (h : s.SetsOut limit before a) {hs : List Happening}
    (harrived : (s.play hs).Arrived) : (s.play hs).source.calls = (s.results hs).length := by
  have hsound := h.heading.toSound
  have hone : s.OneFetch := by
    apply OneFetch.of_eq
    rw [h.landed.1, h.landed.2, if_neg (by simp [h.ready])]
  have hcalls := (play_oneFetch hsound hone hs).calls_eq (by simp [harrived.state])
  have hcompleted := congrArg Prod.fst
    (each_fetch_that_ends_brings_a_result hsound h.heading.quick.calm hs)
  simp only [fetchesEnded, h.landed.2] at hcompleted
  rw [hcalls, hcompleted, if_neg (by simp [harrived.phase])]
  omega

end Session

end Provisioning
