-- Fetches under way: whatever happens, there is one at most.
import Provisioning.Proofs.Session.Fetches
import Provisioning.Proofs.Session.Finality

namespace Provisioning

theorem Playback.answer_calls (p : Playback) (appId : String) :
    (p.answer appId).1.calls = p.calls := by
  simp only [answer]
  split <;> rfl

namespace Session

/-! ## One fetch at most -/

/-- There is no more than one fetch under way, and just one while the loop fetches for a
session that has not been stopped. -/
structure OneFetch (s : Session) : Prop where
  completed_le : s.source.completed ≤ s.source.calls
  calls_le : s.source.calls ≤ s.source.completed + 1
  calls_eq : s.state ≠ .cancelled →
    s.source.calls = s.source.completed + if s.phase = .fetching then 1 else 0

theorem OneFetch.of_eq {s : Session}
    (h : s.source.calls = s.source.completed + if s.phase = .fetching then 1 else 0) :
    s.OneFetch := by
  refine ⟨?_, ?_, fun _ => h⟩ <;> split at h <;> omega

theorem Proceeds.oneFetch {s t : Session} (h : Proceeds s t)
    (hlanded : s.source.calls = s.source.completed) : t.OneFetch := by
  apply OneFetch.of_eq
  rw [h.calls, h.completed, hlanded]

theorem finishFetch_oneFetch {s : Session} (hflight : s.source.calls = s.source.completed + 1) :
    s.finishFetch.OneFetch := by
  have hanswered : s.answered.source.calls = s.answered.source.completed := by
    simp only [answered, Playback.answer_calls, Playback.answer_completed]
    exact hflight
  have hlanded : ∀ (t : Session) (result : FetchResult), t.source = s.answered.source →
      (t.takeResult result).OneFetch := by
    intro t result hsource
    obtain ⟨hkept, hphase⟩ := t.takeResult_rests result
    apply OneFetch.of_eq
    rw [if_neg hphase, hkept, hsource, hanswered, Nat.add_zero]
  rcases hi : s.source.incident? with _ | ⟨reason⟩ | _
  · rw [finishFetch_of_answer hi]
    exact hlanded _ _ rfl
  · rw [finishFetch_of_stop hi]
    exact hlanded _ _ (s.answered.stop_stopped reason).source
  · rw [finishFetch_of_crash hi]
    exact .of_eq hanswered

theorem finishFetch_later_oneFetch {s : Session}
    (hflight : s.source.calls = s.source.completed + 1) (ms : Nat) :
    (s.later ms).finishFetch.OneFetch :=
  finishFetch_oneFetch hflight

theorem perform_later_oneFetch {s : Session} (hlanded : s.source.calls = s.source.completed)
    (event : Event) (todo : List Output) (next : LoopNext) (ms : Nat) :
    (((s.later ms).deliver event).perform todo next).OneFetch := by
  apply (perform_proceeds _ todo next).oneFetch
  rw [deliver_source]
  exact hlanded

theorem enter_later_oneFetch {s : Session} (hlanded : s.source.calls = s.source.completed)
    (ms : Nat) : ((s.later ms).enter .fetch).OneFetch :=
  (enter_proceeds (s.later ms) .fetch).oneFetch hlanded

theorem move_oneFetch {s : Session} (hs : s.Sound) (hlive : s.state.isFinal = false)
    (h : s.OneFetch) : s.move.OneFetch := by
  have htoken := hs.token_of_live hlive
  have hcalls := h.calls_eq (by rintro hc; rw [hc] at hlive; cases hlive)
  rcases hphase : s.phase with _ | _ | ⟨event, todo, next⟩ | _ | how
  · simp only [move, hphase]
    rw [begin_of_idle hs.toSteady (hs.idle_of_ready hphase hlive)]
    apply (perform_proceeds s.running _ _).oneFetch
    rwa [if_neg (by simp [hphase])] at hcalls
  · rw [move_of_fetching hphase htoken]
    rw [if_pos hphase] at hcalls
    exact finishFetch_later_oneFetch hcalls _
  · rw [move_of_emitting hphase]
    rw [if_neg (by simp [hphase])] at hcalls
    exact perform_later_oneFetch hcalls event todo next _
  · rw [move_of_resting hphase htoken]
    rw [if_neg (by simp [hphase])] at hcalls
    exact enter_later_oneFetch hcalls _
  · simp only [move, hphase]
    exact h

/-- A session that is over keeps its fetches as they are. -/
theorem AtRest.oneFetch {s t : Session} (h : AtRest s t) (hs : s.Sound) (ht : t.Sound)
    (hfinal : s.state.isFinal = true) (hone : s.OneFetch) : t.OneFetch := by
  refine ⟨?_, ?_, ?_⟩
  · rw [h.calls, h.completed]
    exact hone.completed_le
  · rw [h.calls, h.completed]
    exact hone.calls_le
  · intro hne
    rw [h.state] at hne
    have hterminal : s.state = .terminal := (s.state.isFinal_iff.mp hfinal).resolve_right hne
    have hclosing : ∀ u : Session, u.phase.isClosing = true → ¬u.phase = .fetching := by
      intro u hclosed hu
      rw [hu] at hclosed
      cases hclosed
    have hcalls := hone.calls_eq hne
    rw [if_neg (hclosing s (hs.closing_of_terminal hterminal))] at hcalls
    rw [if_neg (hclosing t (ht.closing_of_terminal (h.state.trans hterminal))), h.calls,
      h.completed, hcalls]

/-- A stop cancels a session that is not over. -/
theorem happen_of_stop_of_live {s : Session} (hs : s.Sound) (hlive : s.state.isFinal = false)
    {h : Happening} (hstop : h.isStop = true) : (s.happen h).state = .cancelled := by
  have hheld : ¬s.isDropped = true := by
    intro hd
    rw [hs.final_of_dropped hd] at hlive
    cases hlive
  have hcancelled : ∀ reason, (s.stop reason).state = .cancelled := by
    intro reason
    rw [stop_state, if_neg (by simp [hlive])]
  cases h with
  | stop reason =>
    simp only [happen, if_neg hheld]
    exact hcancelled reason
  | drop =>
    simp only [happen, if_neg hheld]
    exact hcancelled "session dropped"
  | clock ms => cases hstop
  | push entry => cases hstop
  | release => cases hstop
  | move => cases hstop

theorem happen_oneFetch {s : Session} (hs : s.Sound) (hone : s.OneFetch) (h : Happening) :
    (s.happen h).OneFetch := by
  have hsound := (happen_spec hs h).1
  by_cases hfinal : s.state.isFinal = true
  · exact (happen_atRest hs hfinal h).oneFetch hs hsound hfinal hone
  have hlive : s.state.isFinal = false := by simpa using hfinal
  by_cases hstop : h.isStop = true
  · obtain ⟨-, hsource⟩ := happen_of_stop hs hstop
    refine ⟨?_, ?_, ?_⟩
    · rw [hsource]
      exact hone.completed_le
    · rw [hsource]
      exact hone.calls_le
    · intro hne
      exact absurd (happen_of_stop_of_live hs hlive hstop) hne
  cases h with
  | clock ms => exact ⟨hone.completed_le, hone.calls_le, hone.calls_eq⟩
  | push entry => exact ⟨hone.completed_le, hone.calls_le, hone.calls_eq⟩
  | release =>
    simp only [happen]
    split
    · exact hone
    · exact ⟨hone.completed_le, hone.calls_le, hone.calls_eq⟩
  | stop reason => exact absurd rfl hstop
  | drop => exact absurd rfl hstop
  | move => exact move_oneFetch hs hlive hone

theorem play_oneFetch {s : Session} (hs : s.Sound) (hone : s.OneFetch) (hs' : List Happening) :
    (s.play hs').OneFetch := by
  induction hs' generalizing s with
  | nil => exact hone
  | cons h hs' ih => exact ih (happen_spec hs h).1 (happen_oneFetch hs hone h)

end Session

end Provisioning
