-- The event log of a session whose sink keeps every event at once: it is computed
-- from the results that arrived and from the first stop, and from nothing else.
import Provisioning.Proofs.Session.Delivery

namespace Provisioning

/-! ## Events without ids and durations -/

/-- An event without the session's id and without how long a fetch took. -/
def Event.plain : Event → Event
  | started _ appId => started "" appId
  | fetched appId state level _ => fetched appId state level .zero
  | e => e

theorem recordEvents_plain (c : Config) (appId : String) (durationMs : Double)
    (state : Option String) :
    (recordEvents c appId durationMs state).map Event.plain = recordEvents c appId .zero state := by
  cases state with
  | none => rfl
  | some state =>
    simp only [recordEvents, List.map_append]
    congr 1
    · split <;> rfl
    · split <;> rfl

theorem FetchResult.events_plain (result : FetchResult) (c : Config) (appId : String)
    (durationMs : Double) :
    (result.events c appId durationMs).map Event.plain = result.events c appId .zero := by
  cases result with
  | error e => rfl
  | ok a => exact recordEvents_plain c appId durationMs (a.state c)

theorem Occurrence.events_plain (o : Occurrence) (c : Config) (sessionId appId : String)
    (durationMs : Double) :
    (o.events c sessionId appId durationMs).map Event.plain = o.events c "" appId .zero := by
  cases o with
  | began => rfl
  | arrived result => exact result.events_plain c appId durationMs
  | stopped reason => rfl

namespace Session

theorem tidings_plain (s : Session) (o : Option Occurrence) :
    (s.tidings o).map Event.plain =
      o.toList.flatMap (Occurrence.events s.config "" s.appId .zero) := by
  cases o with
  | none => rfl
  | some o =>
    simp only [tidings, Option.toList_some, List.flatMap_singleton]
    exact o.events_plain ..

/-! ## The log of a row of happenings -/

theorem play_log {s : Session} (hs : s.Sound) (hsink : s.plan.sink = .collecting 0)
    (hfresh : s.events = #[]) (hempty : s.phase.pending = []) (hs' : List Happening) :
    (s.play hs').events.toList.map Event.plain =
      (s.history hs').flatMap (Occurrence.events s.config "" s.appId .zero) := by
  have hprompt : s.plan.sink.delayMs = 0 := by rw [hsink]; rfl
  induction hs' using List.reverseRecOn with
  | nil =>
    rw [play_nil, hfresh]
    rfl
  | append_singleton hs' h ih =>
    have hpending := play_pending hs hprompt hempty hs'
    have hplan := s.play_plan hs'
    have hkeeps : ∀ events, (s.play hs').plan.sink.keeps events = events := by
      intro events
      rw [hplan, hsink]
      rfl
    obtain ⟨hnext, -⟩ := happen_log (play_sound hs hs') (by rw [hplan]; exact hprompt) hpending h
    rw [play_snoc, hnext, hkeeps, List.map_append, ih, tidings_plain, play_config, play_appId,
      history_snoc, List.flatMap_append]

/-! ## What decides the log -/

end Session

/-- Is this the loop's or a stop's turn? -/
def Happening.isTurn : Happening → Bool
  | stop _ | drop | move => true
  | _ => false

def Happening.isMove : Happening → Bool
  | move => true
  | _ => false

/-- Does the loop run before anyone stops the session? -/
def ranFirst (hs : List Happening) : Bool := (hs.find? Happening.isTurn).any Happening.isMove

def Occurrence.reason? : Occurrence → Option String
  | stopped reason => some reason
  | _ => none

namespace Session

/-- The reason of a stop, whether someone stops the session, gives it up, or the source
stops it at the end of a fetch. -/
def stopReason? (s : Session) : Happening → Option String
  | .stop reason => some reason
  | .drop => some "session dropped"
  | .move => s.moveOccurrence?.bind Occurrence.reason?
  | _ => none

/-- The reasons of all stops, in order. -/
def stopReasons (s : Session) : List Happening → List String
  | [] => []
  | h :: hs => (s.stopReason? h).toList ++ (s.happen h).stopReasons hs

theorem stopReasons_snoc (s : Session) (hs : List Happening) (h : Happening) :
    s.stopReasons (hs ++ [h]) = s.stopReasons hs ++ ((s.play hs).stopReason? h).toList := by
  induction hs generalizing s with
  | nil => simp [stopReasons]
  | cons h' hs ih => simp [stopReasons, ih]

end Session

/-- The log that some results and stops come to: the start, if the loop ran before any
stop, each result, and last the first stop, if no result was terminal. -/
def logOf (c : Config) (appId : String) (ran : Bool) (results : List FetchResult)
    (reasons : List String) : List Event :=
  (if ran then [.started "" appId] else []) ++
    results.flatMap (FetchResult.events c appId .zero) ++
    if results.any (FetchResult.isTerminal c) then []
    else (reasons.head?.map (Event.cancelled appId)).toList

/-- How far a run has come, by the state that it has led to. -/
structure Course (c : Config) (appId : String) (state : SessionState) (first : Option Happening)
    (results : List FetchResult) (reasons : List String) (told : List Event) : Prop where
  log : told = logOf c appId (first.any Happening.isMove) results reasons
  first_iff : first.isSome = true ↔ state ≠ .idle
  terminal_iff : results.any (FetchResult.isTerminal c) = true ↔ state = .terminal
  none_of_idle : state = .idle → results = []
  unstopped : state.isFinal = false → reasons = []
  stopped : state = .cancelled → reasons ≠ []

namespace Course

variable {c : Config} {appId : String} {state : SessionState} {first : Option Happening}
  {results : List FetchResult} {reasons : List String} {told : List Event}

theorem initial (c : Config) (appId : String) : Course c appId .idle none [] [] [] where
  log := rfl
  first_iff := by simp
  terminal_iff := by simp
  none_of_idle := fun _ => rfl
  unstopped := fun _ => rfl
  stopped := by simp

theorem first_of_idle (h : Course c appId state first results reasons told)
    (hidle : state = .idle) : first = none := by
  by_contra hne
  exact h.first_iff.mp (Option.isSome_iff_ne_none.mpr hne) hidle

theorem no_terminal_of_live (h : Course c appId state first results reasons told)
    (hlive : state.isFinal = false) : results.any (FetchResult.isTerminal c) = false := by
  by_contra hterminal
  rw [h.terminal_iff.mp (by simpa using hterminal)] at hlive
  cases hlive

theorem began (h : Course c appId .idle first results reasons told) :
    Course c appId .polling (some .move) results reasons
      (told ++ Occurrence.events c "" appId .zero .began) := by
  have hresults := h.none_of_idle rfl
  have hreasons := h.unstopped rfl
  have hfirst := h.first_of_idle rfl
  refine ⟨?_, by simp, ?_, by simp, fun _ => hreasons, by simp⟩
  · rw [h.log, hresults, hreasons, hfirst]
    rfl
  · rw [hresults]
    simp

theorem arrived (h : Course c appId .polling first results reasons told) (result : FetchResult) :
    Course c appId (if result.isTerminal c then .terminal else .polling) first
      (results ++ [result]) reasons
      (told ++ Occurrence.events c "" appId .zero (.arrived result)) := by
  have hreasons := h.unstopped rfl
  have hother := h.no_terminal_of_live rfl
  refine ⟨?_, ?_, ?_, ?_, fun _ => hreasons, ?_⟩
  · rw [h.log, hreasons]
    simp [logOf, hother, Occurrence.events]
  · rw [h.first_iff]
    split <;> simp
  · rw [List.any_append, hother]
    split <;> simp [*]
  · intro hidle
    split at hidle <;> cases hidle
  · intro hcancelled
    split at hcancelled <;> cases hcancelled

theorem stopped_by (h : Course c appId state first results reasons told)
    (hlive : state.isFinal = false) {first' : Option Happening} (hsome : first'.isSome = true)
    (hran : first'.any Happening.isMove = first.any Happening.isMove) (reason : String) :
    Course c appId .cancelled first' results (reasons ++ [reason])
      (told ++ Occurrence.events c "" appId .zero (.stopped reason)) := by
  have hreasons := h.unstopped hlive
  have hother := h.no_terminal_of_live hlive
  refine ⟨?_, by simp [hsome], by simp [hother], by simp, by simp [SessionState.isFinal], by simp⟩
  rw [h.log, hreasons, hran]
  simp [logOf, hother, Occurrence.events]

/-- Stops of a session that is over do not show. -/
theorem stopped_again (h : Course c appId state first results reasons told)
    (hfinal : state.isFinal = true) (more : List String) :
    Course c appId state first results (reasons ++ more) told := by
  rcases state.isFinal_iff.mp hfinal with hstate | hstate
  · have hterminal := h.terminal_iff.mpr hstate
    refine ⟨?_, h.first_iff, h.terminal_iff, h.none_of_idle, ?_, ?_⟩
    · rw [h.log]
      simp [logOf, hterminal]
    · simp [hfinal]
    · simp [hstate]
  · have hreasons := h.stopped hstate
    refine ⟨?_, h.first_iff, h.terminal_iff, h.none_of_idle, ?_, ?_⟩
    · obtain ⟨reason, rest, rfl⟩ := List.exists_cons_of_ne_nil hreasons
      exact h.log
    · simp [hfinal]
    · simp [hreasons]

end Course

namespace Session

/-! ## Every run has a course -/

theorem stopReason?_of_live {s : Session} (hlive : s.state.isFinal = false) (h : Happening) :
    s.stopReason? h = (s.occurrence? h).bind Occurrence.reason? := by
  cases h <;> simp [stopReason?, occurrence?, hlive, Occurrence.reason?]

/-- Only the loop and a stop bring something about. -/
theorem isTurn_of_occurrence {s : Session} {h : Happening} {o : Occurrence}
    (ho : s.occurrence? h = some o) : h.isTurn = true := by
  cases h with
  | clock ms => simp [occurrence?] at ho
  | push entry => simp [occurrence?] at ho
  | release => simp [occurrence?] at ho
  | stop reason => rfl
  | drop => rfl
  | move => rfl

/-- An idle session begins with the loop's first move. -/
theorem occurrence?_move_of_idle {s : Session} (hs : s.Sound) (hidle : s.state = .idle) :
    s.occurrence? .move = some .began := by
  simp only [occurrence?, hidle, SessionState.isFinal, moveOccurrence?, hs.ready_of_idle hidle]
  rfl

/-- While the session is idle, every turn brings something about. -/
theorem isTurn_of_quiet {s : Session} (hs : s.Sound) (hidle : s.state = .idle) {h : Happening}
    (ho : s.occurrence? h = none) : h.isTurn = false := by
  cases h with
  | clock ms => rfl
  | push entry => rfl
  | release => rfl
  | stop reason => simp [occurrence?, hidle, SessionState.isFinal] at ho
  | drop => simp [occurrence?, hidle, SessionState.isFinal] at ho
  | move =>
    rw [occurrence?_move_of_idle hs hidle] at ho
    cases ho

/-- While the session is idle, only someone else's stop can end it. -/
theorem not_move_of_stopped {s : Session} (hs : s.Sound) (hidle : s.state = .idle) {h : Happening}
    {reason : String} (ho : s.occurrence? h = some (.stopped reason)) : h.isMove = false := by
  by_contra hmove
  have hturn : h = .move := by
    cases h <;> simp [Happening.isMove] at hmove ⊢
  rw [hturn, occurrence?_move_of_idle hs hidle] at ho
  cases ho

/-- Each thing that happens takes the course further. -/
theorem happen_course {s : Session} {first : Option Happening} {results : List FetchResult}
    {reasons : List String} {told : List Event} (hs : s.Sound)
    (hc : Course s.config s.appId s.state first results reasons told) (h : Happening) :
    Course s.config s.appId (s.happen h).state (first.or ([h].find? Happening.isTurn))
      (results ++ ((s.occurrence? h).bind Occurrence.result?).toList)
      (reasons ++ (s.stopReason? h).toList)
      (told ++ (s.occurrence? h).toList.flatMap
        (Occurrence.events s.config "" s.appId .zero)) := by
  have he := (happen_spec hs h).2
  have hreason := fun hlive => stopReason?_of_live (s := s) hlive h
  have hkept : s.state ≠ .idle → first.or ([h].find? Happening.isTurn) = first := by
    intro hran
    obtain ⟨turn, hturn⟩ := Option.isSome_iff_exists.mp (hc.first_iff.mpr hran)
    rw [hturn]
    rfl
  generalize ho : s.occurrence? h = o at he hreason
  cases he with
  | quiet state latest latch =>
    rw [state]
    simp only [Option.bind_none, Option.toList_none, List.flatMap_nil, List.append_nil]
    by_cases hfinal : s.state.isFinal = true
    · rw [hkept (by intro hidle; rw [hidle] at hfinal; cases hfinal)]
      exact hc.stopped_again hfinal _
    · rw [hreason (by simpa using hfinal)]
      by_cases hidle : s.state = .idle
      · have hturn := isTurn_of_quiet hs hidle ho
        simpa [hturn] using hc
      · rw [hkept hidle]
        simpa using hc
  | began idle state latest latch =>
    rw [idle] at hc
    have hnone := hc.first_of_idle rfl
    rw [state, hreason (by rw [idle]; rfl), move_of_occurrence ho (by simp), hnone]
    simpa [Happening.isTurn, Occurrence.result?, Occurrence.reason?] using hc.began
  | failed e polling state latest latch =>
    rw [state, hreason (by rw [polling]; rfl), hkept (by simp [polling])]
    rw [polling] at hc
    have hother : FetchResult.isTerminal s.config (.error e) = false := rfl
    simpa [Occurrence.result?, Occurrence.reason?, hother] using hc.arrived (.error e)
  | progressed a time polling terminal state latest latch =>
    rw [state, hreason (by rw [polling]; rfl), hkept (by simp [polling])]
    rw [polling] at hc
    have hother : FetchResult.isTerminal s.config (.ok a) = false := terminal
    simpa [Occurrence.result?, Occurrence.reason?, hother] using hc.arrived (.ok a)
  | reached a time polling terminal state latest latch =>
    rw [state, hreason (by rw [polling]; rfl), hkept (by simp [polling])]
    rw [polling] at hc
    have hterminal : FetchResult.isTerminal s.config (.ok a) = true := terminal
    simpa [Occurrence.result?, Occurrence.reason?, hterminal] using hc.arrived (.ok a)
  | stopped reason live state latest latch =>
    have hturn := isTurn_of_occurrence ho
    rw [state, hreason live]
    simp only [Option.bind_some, Occurrence.result?, Occurrence.reason?, Option.toList_none,
      Option.toList_some, List.append_nil, List.flatMap_singleton]
    by_cases hidle : s.state = .idle
    · have hmove := not_move_of_stopped hs hidle ho
      have hnone := hc.first_of_idle hidle
      exact hc.stopped_by live (by simp [hnone, hturn]) (by simp [hnone, hturn, hmove]) reason
    · rw [hkept hidle]
      exact hc.stopped_by live (hc.first_iff.mpr hidle) rfl reason

theorem play_course {s : Session} (hs : s.Sound) (hidle : s.state = .idle)
    (hs' : List Happening) :
    Course s.config s.appId (s.play hs').state (hs'.find? Happening.isTurn) (s.results hs')
      (s.stopReasons hs')
      ((s.history hs').flatMap (Occurrence.events s.config "" s.appId .zero)) := by
  induction hs' using List.reverseRecOn with
  | nil =>
    rw [play_nil, hidle]
    exact Course.initial s.config s.appId
  | append_singleton hs' h ih =>
    have hconfig := s.play_config hs'
    have happ := s.play_appId hs'
    rw [← hconfig, ← happ] at ih ⊢
    rw [play_snoc, List.find?_append, results_snoc, stopReasons_snoc, history_snoc,
      List.flatMap_append]
    exact happen_course (play_sound hs hs') ih h

/-! ## The law -/

/-- The log of a session with a collecting sink, which keeps each event at once, is,
but for ids, times and durations: the start, if the loop ran before anyone stopped the
session; then, in order, the events of each result that arrived before the session
was over; and last, unless a result was terminal, the first stop with its reason. -/
theorem log_tells_of_each_result_and_the_first_stop {config : Config}
    (hvalid : config.validate = .ok config) (id appId : String) (source : Playback)
    (navigator : Navigator) (timeText : Nat → String) :
    ∃ s₀, Session.start id appId config source navigator (.collecting 0) timeText = .ok s₀ ∧
      ∀ hs : List Happening,
        (s₀.play hs).events.toList.map Event.plain =
          (if ranFirst hs then [.started "" appId] else []) ++
            (s₀.results hs).flatMap (FetchResult.events config appId .zero) ++
            if (s₀.results hs).any (FetchResult.isTerminal config) then []
            else ((s₀.stopReasons hs).head?.map (Event.cancelled appId)).toList := by
  obtain ⟨s₀, hstart, hs₀⟩ :=
    exists_started hvalid id appId source navigator (.collecting 0) timeText
  refine ⟨s₀, hstart, fun hs => ?_⟩
  have hlog := play_log hs₀.toSound hs₀.sink_eq hs₀.events (by rw [hs₀.phase]; rfl) hs
  have hcourse := play_course hs₀.toSound hs₀.idle hs
  rw [hlog, hcourse.log, hs₀.config_eq, hs₀.appId_eq]
  rfl

/-- A failed fetch and the terminal record make one log, a stop in between another. -/
theorem log_of_a_failure_and_the_end :
    ∃ s₀, Session.start "s1" "a1" Config.standard
        { script := [.error (.transport "u" "down"),
          .ok (.reporting "a1" "environment_vars" "finished")] } .detached
        (.collecting 0) (fun _ => "") = .ok s₀ ∧
      (s₀.play [.move, .move, .move, .move, .stop "late"]).events.toList.map Event.plain =
        [.started "" "a1",
          .failed "a1" "transport" (FetchError.message (.transport "u" "down")) true,
          .fetched "a1" (some "finished") (some 8) .zero, .terminal "a1" "/app/view/a1"] ∧
      (s₀.play [.move, .move, .stop "closed", .drop]).events.toList.map Event.plain =
        [.started "" "a1",
          .failed "a1" "transport" (FetchError.message (.transport "u" "down")) true,
          .cancelled "a1" "closed"] := by
  obtain ⟨s₀, hstart, hlaw⟩ := log_tells_of_each_result_and_the_first_stop
    Config.standard_validate "s1" "a1"
    { script := [.error (.transport "u" "down"),
      .ok (.reporting "a1" "environment_vars" "finished")] } .detached (fun _ => "")
  have hs₀ := hstart
  rw [start_of_validate Config.standard_validate] at hs₀
  refine ⟨s₀, hstart, ?_, ?_⟩
  · rw [hlaw]
    cases hs₀
    rfl
  · rw [hlaw]
    cases hs₀
    rfl

end Session

end Provisioning
