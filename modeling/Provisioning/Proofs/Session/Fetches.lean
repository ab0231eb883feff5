-- The source of a session: the loop begins a fetch as it comes to that phase, only one
-- of its moves ends it, and each fetch that ends before the session is over brings one
-- result.
import Provisioning.Proofs.Session.Effect

namespace Provisioning

theorem Playback.answer_completed (p : Playback) (appId : String) :
    (p.answer appId).1.completed = p.completed + 1 := by
  simp only [answer]
  split <;> rfl

theorem Playback.answer_incidents (p : Playback) (appId : String) :
    (p.answer appId).1.incidents = p.incidents := by
  simp only [answer]
  split <;> rfl

namespace Session

/-! ## Beginning a fetch -/

/-- The source after the loop has gone on from another session: a fetch has begun if
the loop fetches now. -/
def Proceeds (s t : Session) : Prop :=
  t.source = if t.phase = .fetching then s.source.call else s.source

theorem Proceeds.completed {s t : Session} (h : Proceeds s t) :
    t.source.completed = s.source.completed := by
  rw [h]
  split <;> rfl

theorem Proceeds.calls {s t : Session} (h : Proceeds s t) :
    t.source.calls = s.source.calls + if t.phase = .fetching then 1 else 0 := by
  rw [h]
  split <;> rfl

theorem conclude_phase_ne_fetching (s : Session) : s.conclude.phase ≠ .fetching := by
  simp only [conclude]
  split
  · split <;> simp
  · simp

theorem conclude_proceeds (s : Session) : Proceeds s s.conclude := by
  rw [Proceeds, if_neg s.conclude_phase_ne_fetching]
  exact s.conclude_source

theorem beginFetch_proceeds (s : Session) : Proceeds s s.beginFetch := by
  have hphase : s.beginFetch.phase = .fetching := by
    simp only [beginFetch]
    split <;> rfl
  rw [Proceeds, if_pos hphase]
  simp only [beginFetch]
  split <;> rfl

theorem enter_proceeds (s : Session) (next : LoopNext) : Proceeds s (s.enter next) := by
  unfold enter
  split
  · rfl
  · split
    · exact s.conclude_proceeds
    · exact s.beginFetch_proceeds
  · split
    · exact s.conclude_proceeds
    · rfl

theorem perform_proceeds (s : Session) (todo : List Output) (next : LoopNext) :
    Proceeds s (s.perform todo next) := by
  induction todo generalizing s with
  | nil => exact s.enter_proceeds next
  | cons o todo ih =>
    cases o with
    | say line => exact ih (s.say .poller line)
    | emit event =>
      simp only [perform]
      split
      · have hrest := ih (s.deliver event)
        rw [Proceeds, deliver_source] at hrest
        exact hrest
      · rfl

/-- What the loop makes known leads to a fetch only if that is what it goes on to. -/
theorem perform_phase_ne_fetching (s : Session) (todo : List Output) {next : LoopNext}
    (hnext : next ≠ .fetch) : (s.perform todo next).phase ≠ .fetching := by
  induction todo generalizing s with
  | nil =>
    cases next with
    | fetch => exact absurd rfl hnext
    | finish outcome => simp [perform, enter]
    | rest =>
      simp only [perform, enter]
      split
      · exact s.conclude_phase_ne_fetching
      · simp
  | cons o todo ih =>
    cases o with
    | say line => exact ih _
    | emit event =>
      simp only [perform]
      split
      · exact ih _
      · simp

/-- No result leads to a fetch at once. -/
theorem takeResult_rests (s : Session) (result : FetchResult) :
    (s.takeResult result).source = s.source ∧ (s.takeResult result).phase ≠ .fetching := by
  have hperform : ∀ (t : Session) (todo : List Output) (next : LoopNext), next ≠ .fetch →
      (t.perform todo next).source = t.source ∧ (t.perform todo next).phase ≠ .fetching := by
    intro t todo next hnext
    have hphase := t.perform_phase_ne_fetching todo hnext
    have hsource := t.perform_proceeds todo next
    rw [Proceeds, if_neg hphase] at hsource
    exact ⟨hsource, hphase⟩
  have hconclude := And.intro s.conclude_source s.conclude_phase_ne_fetching
  unfold takeResult
  split
  · exact hconclude
  · split
    · simp only [takeRecord]
      split
      · exact hconclude
      · split
        · exact hperform _ _ _ (by simp)
        · exact hperform _ _ _ (by simp)
    · exact hperform s _ _ (by simp)

/-! ## Fetches that have ended -/

/-- How many fetches have ended, and what may go wrong at the end of one. -/
def fetchesEnded (s : Session) : Nat × List (Nat × Incident) :=
  (s.source.completed, s.source.incidents)

theorem Proceeds.fetchesEnded {s t : Session} (h : Proceeds s t) :
    t.fetchesEnded = s.fetchesEnded := by
  rw [Session.fetchesEnded, h]
  split <;> rfl

theorem takeResult_fetchesEnded (s : Session) (result : FetchResult) :
    (s.takeResult result).fetchesEnded = s.fetchesEnded := by
  rw [fetchesEnded, (s.takeResult_rests result).1, fetchesEnded]

/-- The end of a fetch counts it, whatever comes of its answer. -/
theorem finishFetch_fetchesEnded (s : Session) :
    s.finishFetch.fetchesEnded = (s.source.completed + 1, s.source.incidents) := by
  have hanswered : s.answered.fetchesEnded = (s.source.completed + 1, s.source.incidents) := by
    simp only [fetchesEnded, answered, Playback.answer_completed, Playback.answer_incidents]
  rcases hi : s.source.incident? with _ | ⟨reason⟩ | _
  · rw [finishFetch_of_answer hi, takeResult_fetchesEnded]
    exact hanswered
  · rw [finishFetch_of_stop hi, takeResult_fetchesEnded, fetchesEnded,
      (s.answered.stop_stopped reason).source]
    exact hanswered
  · rw [finishFetch_of_crash hi]
    exact hanswered

theorem begin_fetchesEnded (s : Session) : s.begin.fetchesEnded = s.fetchesEnded := by
  unfold begin
  split
  · exact s.conclude_proceeds.fetchesEnded
  · rw [(perform_proceeds _ _ _).fetchesEnded]
    unfold moveTo
    split <;> rfl

theorem finishFetch_later_fetchesEnded (s : Session) (ms : Nat) :
    (s.later ms).finishFetch.fetchesEnded = (s.source.completed + 1, s.source.incidents) :=
  (s.later ms).finishFetch_fetchesEnded

theorem enter_later_fetchesEnded (s : Session) (ms : Nat) :
    ((s.later ms).enter .fetch).fetchesEnded = s.fetchesEnded := by
  rw [(enter_proceeds _ _).fetchesEnded]
  rfl

theorem perform_later_fetchesEnded (s : Session) (event : Event) (todo : List Output)
    (next : LoopNext) (ms : Nat) :
    (((s.later ms).deliver event).perform todo next).fetchesEnded = s.fetchesEnded := by
  rw [(perform_proceeds _ _ _).fetchesEnded, fetchesEnded, deliver_source]
  rfl

/-- A move ends a fetch if one is under way and the token is not cancelled. -/
theorem move_fetchesEnded (s : Session) :
    s.move.fetchesEnded =
      if s.phase = .fetching ∧ s.token.isCancelled = false then
        (s.source.completed + 1, s.source.incidents)
      else s.fetchesEnded := by
  rcases hphase : s.phase with _ | _ | ⟨event, todo, next⟩ | _ | how
  · simp only [move, hphase, reduceCtorEq, false_and, if_false]
    exact s.begin_fetchesEnded
  · by_cases htoken : s.token.isCancelled = true
    · rw [move_of_cancelled (Or.inl hphase) htoken, if_neg (by simp [htoken])]
      exact s.conclude_proceeds.fetchesEnded
    · have hopen : s.token.isCancelled = false := by simpa using htoken
      rw [move_of_fetching hphase hopen, if_pos ⟨rfl, hopen⟩]
      exact s.finishFetch_later_fetchesEnded _
  · rw [move_of_emitting hphase, if_neg (by simp)]
    exact s.perform_later_fetchesEnded event todo next _
  · rw [if_neg (by simp)]
    by_cases htoken : s.token.isCancelled = true
    · rw [move_of_cancelled (Or.inr hphase) htoken]
      exact s.conclude_proceeds.fetchesEnded
    · rw [move_of_resting hphase (by simpa using htoken)]
      exact s.enter_later_fetchesEnded _
  · simp only [move, hphase, reduceCtorEq, false_and, if_false]

/-! ## Fetches and results -/

theorem fetchOccurrence?_of_calm {s : Session} (hcalm : s.source.incidents = []) :
    s.fetchOccurrence? = some (.arrived (s.source.answer s.appId).2) := by
  have hincident : s.source.incident? = none := by simp [Playback.incident?, hcalm]
  simp only [fetchOccurrence?, hincident]

/-- A move that ends no fetch brings no result. -/
theorem no_result_of_move {s : Session} (hs : s.Sound)
    (hother : ¬(s.phase = .fetching ∧ s.token.isCancelled = false)) :
    (s.occurrence? .move).bind Occurrence.result? = none := by
  by_cases hfinal : s.state.isFinal = true
  · simp only [occurrence?, if_pos hfinal, Option.bind_none]
  · have htoken := hs.token_of_live (by simpa using hfinal)
    simp only [occurrence?, if_neg hfinal, moveOccurrence?]
    rcases hphase : s.phase with _ | _ | _ | _ | _
    · rfl
    · exact absurd ⟨hphase, htoken⟩ hother
    · rfl
    · rfl
    · rfl

/-- With a source that does nothing but answer, a fetch ends just when a result arrives. -/
theorem happen_fetchesEnded {s : Session} (hs : s.Sound) (hcalm : s.source.incidents = [])
    (h : Happening) :
    (s.happen h).fetchesEnded =
      (s.source.completed + (((s.occurrence? h).bind Occurrence.result?).toList).length, []) := by
  have hkept : s.fetchesEnded = (s.source.completed, []) := by rw [fetchesEnded, hcalm]
  have hstop : ∀ reason, (s.stop reason).fetchesEnded = (s.source.completed, []) := by
    intro reason
    rw [fetchesEnded, (s.stop_stopped reason).source, hcalm]
  cases h with
  | clock ms =>
    simp only [occurrence?, ite_self]
    exact hkept
  | push entry =>
    simp only [occurrence?, ite_self]
    exact hkept
  | release =>
    simp only [occurrence?, ite_self, happen]
    split <;> exact hkept
  | stop reason =>
    simp only [occurrence?, happen]
    split
    · split <;> exact hkept
    · split <;> exact hstop reason
  | drop =>
    simp only [occurrence?, happen]
    split
    · split <;> exact hkept
    · split <;> exact hstop _
  | move =>
    have hmove := s.move_fetchesEnded
    split at hmove
    · rename_i hfetching
      have hpolling : s.state = .polling := by
        rcases hs.parked (Or.inl hfetching.1) with ⟨hstate, -⟩ | ⟨-, hcancelled⟩
        · exact hstate
        · rw [hcancelled] at hfetching
          cases hfetching.2
      simp only [occurrence?, hpolling, SessionState.isFinal, moveOccurrence?, hfetching.1,
        fetchOccurrence?_of_calm hcalm]
      rw [hcalm] at hmove
      exact hmove
    · rename_i hother
      rw [no_result_of_move hs hother]
      exact hmove.trans hkept

/-- The results of a run are as many as its fetches that ended. -/
theorem each_fetch_that_ends_brings_a_result {s : Session} (hs : s.Sound)
    (hcalm : s.source.incidents = []) (hs' : List Happening) :
    (s.play hs').fetchesEnded = (s.source.completed + (s.results hs').length, []) := by
  induction hs' using List.reverseRecOn with
  | nil => rw [play_nil, fetchesEnded, hcalm]; rfl
  | append_singleton hs' h ih =>
    have hcompleted := congrArg Prod.fst ih
    have hincidents := congrArg Prod.snd ih
    rw [play_snoc, results_snoc, happen_fetchesEnded (play_sound hs hs') hincidents h,
      List.length_append, ← Nat.add_assoc]
    exact congrArg (fun n => (n + _, [])) hcompleted

end Session

end Provisioning
