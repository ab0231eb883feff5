-- Calls of `cancel` that overlap look like calls made one after another, each as a
-- whole at the moment it tries the flag; and whole calls are races like any other.
import Provisioning.Proofs.Cancellation.Race

namespace Provisioning

/-! ## Runs of whole calls -/

/-- What can happen when a call of `cancel` is taken as a whole. -/
inductive WaitingAct
  | cancel (reason : String)
  | spawn
  | stepAt (i : Nat)
deriving DecidableEq, Repr

namespace Waiting

def act (w : Waiting) : WaitingAct → Waiting
  | .cancel reason => (w.cancel reason).1
  | .spawn => w.spawn
  | .stepAt i => w.stepAt i

def after (w : Waiting) (acts : List WaitingAct) : Waiting := acts.foldl act w

theorem after_append (w : Waiting) (acts more : List WaitingAct) :
    w.after (acts ++ more) = (w.after acts).after more :=
  List.foldl_append

theorem cancel_of_none {w : Waiting} (h : w.token.reason = none) (reason : String) :
    w.cancel reason = (⟨⟨some reason⟩, w.waiters.map Waiter.wake⟩, true) := by
  simp [cancel, CancellationToken.cancel, h]

theorem cancel_of_some {w : Waiting} {first : String} (h : w.token.reason = some first)
    (reason : String) : w.cancel reason = (w, false) := by
  simp [cancel, CancellationToken.cancel, h]

end Waiting

/-! ## A race seen as whole calls -/

/-- How a waiter of the race looks when the cancellation counts as done from the moment
the flag is up: whoever sleeps then counts as woken. -/
def RaceWaiter.ShownAs (up : Bool) : RaceWaiter → Waiter → Prop
  | starting, u => u = .starting
  | registered woken, u => ∃ b, u = .registered b ∧ (up = false → b = woken)
  | checked woken, u => u = .parked (woken || up)
  | parked woken, u => u = .parked (woken || up)
  | finished, u => u = .finished

namespace RaceWaiter

variable {v : RaceWaiter} {u : Waiter}

theorem ShownAs.wake_up (h : v.ShownAs false u) : v.ShownAs true u.wake := by
  cases v with
  | starting => subst h; rfl
  | registered woken =>
    obtain ⟨b, rfl, -⟩ := h
    exact ⟨true, rfl, by simp⟩
  | checked woken => subst h; simp [ShownAs, Waiter.wake]
  | parked woken => subst h; simp [ShownAs, Waiter.wake]
  | finished => subst h; rfl

theorem ShownAs.wake (h : v.ShownAs true u) : v.wake.ShownAs true u := by
  cases v with
  | starting => exact h
  | registered woken =>
    obtain ⟨b, hb, -⟩ := h
    exact ⟨b, hb, by simp⟩
  | checked woken => simpa [ShownAs, RaceWaiter.wake] using h
  | parked woken => simpa [ShownAs, RaceWaiter.wake] using h
  | finished => exact h

/-- A step of a waiter is a step of the whole-call waiter, or is not seen. -/
theorem ShownAs.step {cell : TokenCell} {t : CancellationToken} (ht : t.isCancelled = cell.flag)
    (h : v.ShownAs cell.flag u) :
    (v.step cell).ShownAs cell.flag u ∨ (v.step cell).ShownAs cell.flag (u.step t) := by
  cases v with
  | starting =>
    subst h
    exact .inr ⟨false, rfl, fun _ => rfl⟩
  | registered woken =>
    obtain ⟨b, rfl, hb⟩ := h
    right
    cases hup : cell.flag with
    | true => simp [RaceWaiter.step, Waiter.step, ShownAs, ht, hup]
    | false => simp [RaceWaiter.step, Waiter.step, ShownAs, ht, hup, hb hup]
  | checked woken => exact .inl h
  | parked woken =>
    cases woken with
    | true =>
      subst h
      right
      simp [RaceWaiter.step, Waiter.step, ShownAs]
    | false => exact .inl h
  | finished => exact .inl h

end RaceWaiter

namespace TokenRace

/-- The race looks like `w`, where every call that has tried the flag was made as a whole. -/
structure Tracks (r : TokenRace) (winner : Option Nat) (w : Waiting) : Prop where
  open_token : winner = none → w.token.reason = none
  won_token : ∀ i c, winner = some i → r.calls[i]? = some c → w.token.reason = some c.reason
  same_length : w.waiters.length = r.waiters.length
  waiters : ∀ (k : Nat) (v : RaceWaiter), r.waiters[k]? = some v →
    ∃ u, w.waiters[k]? = some u ∧ v.ShownAs r.cell.flag u

variable {r : TokenRace} {winner : Option Nat} {w : Waiting}

theorem Tracks.isCancelled (h : r.Sound winner) (ht : r.Tracks winner w) :
    w.token.isCancelled = r.cell.flag := by
  cases hwin : winner with
  | none =>
    have hdown : r.cell.flag ≠ true := fun hup => h.flag_iff.mp hup hwin
    simp [CancellationToken.isCancelled, ht.open_token hwin, hdown]
  | some i =>
    have hlt := h.winner_is_there i hwin
    have hup := h.flag_iff.mpr (by simp [hwin])
    have hreason := ht.won_token i _ hwin (List.getElem?_eq_getElem hlt)
    simp [CancellationToken.isCancelled, hreason, hup]

/-- What a call sets back into the list of calls keeps the winner's reason. -/
theorem Tracks.won_token_set (ht : r.Tracks winner w) {i : Nat} {c : CancelCall}
    (hc : r.calls[i]? = some c) :
    ∀ j d, winner = some j → (r.calls.set i (c.step i r.cell).2)[j]? = some d →
      w.token.reason = some d.reason := by
  intro j d hj hd
  by_cases hji : j = i
  · subst hji
    rw [List.getElem?_set_self (List.getElem?_eq_some_iff.mp hc).1] at hd
    rw [← Option.some.inj hd, reason_of_step]
    exact ht.won_token j c hj hc
  · rw [List.getElem?_set_ne (Ne.symm hji)] at hd
    exact ht.won_token j d hj hd

/-- Once someone has won, no call is seen any more. -/
theorem Tracks.callAt_of_won (ht : r.Tracks winner w) {i : Nat} {c : CancelCall}
    (hc : r.calls[i]? = some c) (hup : r.cell.flag = true)
    (hstill : (c.step i r.cell).1.flag = true) (hwon : winner ≠ none) :
    (r.step (.callAt i)).Tracks winner w := by
  rw [step_callAt hc]
  refine ⟨fun hopen => absurd hopen hwon, ht.won_token_set hc, ?_, ?_⟩
  · simp only
    split <;> simp [ht.same_length]
  · intro k v hv
    simp only [hstill]
    split at hv
    · rw [List.getElem?_map] at hv
      obtain ⟨v', hv', rfl⟩ := Option.map_eq_some_iff.mp hv
      obtain ⟨u, hu, hshown⟩ := ht.waiters k v' hv'
      rw [hup] at hshown
      exact ⟨u, hu, hshown.wake⟩
    · obtain ⟨u, hu, hshown⟩ := ht.waiters k v hv
      rw [hup] at hshown
      exact ⟨u, hu, hshown⟩

/-- Only a call that has just taken the lock puts the flag up. -/
theorem flag_of_step (i : Nat) (cell : TokenCell) {c : CancelCall} (hc : c.place ≠ .locked) :
    (c.step i cell).1.flag = cell.flag := by
  rcases c with ⟨reason, place⟩
  cases place with
  | entered =>
    simp only [CancelCall.step]
    split <;> rfl
  | locked => contradiction
  | _ => rfl

/-- While nobody has won, only the call that puts the flag up is seen, and it is seen as
a whole. -/
theorem Tracks.callAt_of_open (h : r.Sound winner) (ht : r.Tracks winner w) {i : Nat}
    {c : CancelCall} (hc : r.calls[i]? = some c) (hopen : winner = none) :
    ∃ winner' acts, (r.step (.callAt i)).Sound winner' ∧
      (r.step (.callAt i)).Tracks winner' (w.after acts) := by
  obtain ⟨winner', h', -⟩ := h.callAt hc
  have hdown : r.cell.flag = false := by
    cases hup : r.cell.flag with
    | false => rfl
    | true => exact absurd hopen (h.flag_iff.mp hup)
  have hasleep : c.place ≠ .unlocked := by
    intro hlast
    have hfit := h.calls_fit i c hc
    simp [CallFits, hlast, hopen] at hfit
  rw [step_callAt hc] at h' ⊢
  simp only [if_neg hasleep] at h' ⊢
  by_cases htries : c.place = .locked
  · have hstep : c.step i r.cell =
        ({ r.cell with flag := true }, { c with place := .marked }) := by
      simp [CancelCall.step, htries, hdown]
    have hlt := (List.getElem?_eq_some_iff.mp hc).1
    rw [hstep] at h' ⊢
    have hfit := h'.calls_fit i _ (List.getElem?_set_self hlt)
    obtain rfl : winner' = some i := hfit.2.1
    refine ⟨some i, [.cancel c.reason], h', ?_⟩
    have hafter : w.after [.cancel c.reason] = ⟨⟨some c.reason⟩, w.waiters.map Waiter.wake⟩ := by
      simp [Waiting.after, Waiting.act, Waiting.cancel_of_none (ht.open_token hopen)]
    rw [hafter]
    refine ⟨by simp, ?_, by simp [ht.same_length], ?_⟩
    · intro j d hj hd
      obtain rfl := Option.some.inj hj
      rw [List.getElem?_set_self hlt] at hd
      rw [← Option.some.inj hd]
    · intro k v hv
      obtain ⟨u, hu, hshown⟩ := ht.waiters k v hv
      rw [hdown] at hshown
      exact ⟨u.wake, by simp [hu], hshown.wake_up⟩
  · have hstill := flag_of_step i r.cell htries
    have hopen' : winner' = none := by
      by_contra hwon
      have hup := h'.flag_iff.mpr hwon
      simp [hstill, hdown] at hup
    refine ⟨winner', [], h', fun _ => ht.open_token hopen, ?_, ht.same_length, ?_⟩
    · simp [hopen']
    · simp only [hstill]
      exact ht.waiters

theorem Tracks.callAt (h : r.Sound winner) (ht : r.Tracks winner w) {i : Nat} {c : CancelCall}
    (hc : r.calls[i]? = some c) :
    ∃ winner' acts, (r.step (.callAt i)).Sound winner' ∧
      (r.step (.callAt i)).Tracks winner' (w.after acts) := by
  by_cases hopen : winner = none
  · exact ht.callAt_of_open h hc hopen
  · obtain ⟨winner', h', hstays⟩ := h.callAt hc
    rw [hstays hopen] at h'
    refine ⟨winner, [], h', ht.callAt_of_won hc (h.flag_iff.mpr hopen) ?_ hopen⟩
    have hup := h'.flag_iff.mpr hopen
    rwa [step_callAt hc] at hup

theorem Tracks.waitAt (h : r.Sound winner) (ht : r.Tracks winner w) {k : Nat} {v : RaceWaiter}
    (hv : r.waiters[k]? = some v) :
    ∃ acts, (r.step (.waitAt k)).Tracks winner (w.after acts) := by
  obtain ⟨u, hu, hshown⟩ := ht.waiters k v hv
  have hkr : k < r.waiters.length := (List.getElem?_eq_some_iff.mp hv).1
  rw [step_waitAt hv]
  rcases hshown.step (ht.isCancelled h) with hunseen | hseen
  · refine ⟨[], { ht with same_length := ?_, waiters := ?_ }⟩
    · simpa [Waiting.after] using ht.same_length
    · intro j v' hj
      by_cases hjk : j = k
      · subst hjk
        rw [List.getElem?_set_self hkr] at hj
        exact ⟨u, hu, Option.some.inj hj ▸ hunseen⟩
      · rw [List.getElem?_set_ne (Ne.symm hjk)] at hj
        exact ht.waiters j v' hj
  · refine ⟨[.stepAt k], { ht with same_length := ?_, waiters := ?_ }⟩
    · simpa [Waiting.after, Waiting.act, Waiting.stepAt] using ht.same_length
    · intro j v' hj
      simp only [Waiting.after, List.foldl_cons, List.foldl_nil, Waiting.act, Waiting.stepAt,
        List.getElem?_modify]
      by_cases hjk : j = k
      · subst hjk
        rw [List.getElem?_set_self hkr] at hj
        exact ⟨_, by simp [hu], Option.some.inj hj ▸ hseen⟩
      · rw [List.getElem?_set_ne (Ne.symm hjk)] at hj
        obtain ⟨u', hu', hshown'⟩ := ht.waiters j v' hj
        exact ⟨u', by simp [hu', Ne.symm hjk], hshown'⟩

theorem Tracks.wait (ht : r.Tracks winner w) :
    (r.step .wait).Tracks winner (w.after [.spawn]) := by
  refine { ht with same_length := ?_, waiters := ?_ }
  · simp [Waiting.after, Waiting.act, Waiting.spawn, step, ht.same_length]
  · intro k v hv
    simp only [Waiting.after, List.foldl_cons, List.foldl_nil, Waiting.act, Waiting.spawn]
    rcases eq_or_of_getElem?_snoc hv with hold | ⟨rfl, rfl⟩
    · obtain ⟨u, hu, hshown⟩ := ht.waiters k v hold
      have hlt := (List.getElem?_eq_some_iff.mp hu).1
      exact ⟨u, by rw [List.getElem?_append_left hlt, hu], hshown⟩
    · exact ⟨.starting, by simp [← ht.same_length], rfl⟩

theorem Tracks.step (h : r.Sound winner) (ht : r.Tracks winner w) (a : RaceStep) :
    ∃ winner' acts, (r.step a).Sound winner' ∧ (r.step a).Tracks winner' (w.after acts) := by
  cases a with
  | call reason =>
    refine ⟨winner, [], h.call reason, { ht with won_token := ?_ }⟩
    intro j d hj hd
    rcases eq_or_of_getElem?_snoc hd with hold | ⟨rfl, -⟩
    · exact ht.won_token j d hj hold
    · exact absurd (h.winner_is_there _ hj) (Nat.lt_irrefl _)
  | callAt i =>
    cases hc : r.calls[i]? with
    | none => exact ⟨winner, [], by simpa only [TokenRace.step, hc] using ⟨h, ht⟩⟩
    | some c => exact ht.callAt h hc
  | observe => exact ⟨winner, [], h.observe, { ht with }⟩
  | observeAt i =>
    cases ho : r.observers[i]? with
    | none => exact ⟨winner, [], by simpa only [TokenRace.step, ho] using ⟨h, ht⟩⟩
    | some o =>
      have h' := h.observeAt ho
      rw [step_observeAt ho, (observer_moves h (List.mem_of_getElem? ho)).only_readers] at h' ⊢
      exact ⟨winner, [], h', { ht with }⟩
  | wait => exact ⟨winner, [.spawn], h.wait, ht.wait⟩
  | waitAt k =>
    cases hv : r.waiters[k]? with
    | none => exact ⟨winner, [], by simpa only [TokenRace.step, hv] using ⟨h, ht⟩⟩
    | some v =>
      obtain ⟨acts, hacts⟩ := ht.waitAt h hv
      exact ⟨winner, acts, h.waitAt hv, hacts⟩

theorem tracks_start : Tracks {} none {} := by
  constructor <;> simp

/-- However the steps of the calls, the observers and the waiters mix, the race looks like
calls made as a whole, one after another. -/
theorem looks_like_whole_calls (steps : List RaceStep) :
    ∃ winner acts, (play {} steps).Sound winner ∧
      (play {} steps).Tracks winner (Waiting.after {} acts) := by
  suffices hall : ∀ (r : TokenRace) (winner : Option Nat) (acts : List WaitingAct),
      r.Sound winner → r.Tracks winner (Waiting.after {} acts) →
      ∃ winner' acts', (r.play steps).Sound winner' ∧
        (r.play steps).Tracks winner' (Waiting.after {} acts') from
    hall {} none [] sound_start tracks_start
  induction steps with
  | nil => exact fun r winner acts h ht => ⟨winner, acts, h, ht⟩
  | cons a rest ih =>
    intro r winner acts h ht
    obtain ⟨next, more, h', ht'⟩ := ht.step h a
    rw [← Waiting.after_append] at ht'
    exact ih _ next (acts ++ more) h' ht'

/-! ## Whole calls are races -/

/-- The steps of a call that nobody interrupts. -/
theorem step_callAt_last (cell : TokenCell) (calls : List CancelCall) (c : CancelCall)
    (observers : List TokenObserver) (waiters : List RaceWaiter) :
    TokenRace.step ⟨cell, calls ++ [c], observers, waiters⟩ (.callAt calls.length) =
      ⟨(c.step calls.length cell).1, calls ++ [(c.step calls.length cell).2], observers,
        if c.place = .unlocked then waiters.map RaceWaiter.wake else waiters⟩ := by
  rw [step_callAt (c := c) (by simp)]
  simp

/-- A call that nobody interrupts, from its coming to its return. -/
def wholeCall (r : TokenRace) (reason : String) : List RaceStep :=
  .call reason :: List.replicate 5 (.callAt r.calls.length)

theorem play_wholeCall_of_down (r : TokenRace) (reason : String) (hdown : r.cell.flag = false)
    (hwriter : r.cell.writer = none) (hreaders : r.cell.readers = 0) :
    r.play (r.wholeCall reason) =
      ⟨{ r.cell with flag := true, reason := some reason },
        r.calls ++ [⟨reason, .returned true⟩], r.observers, r.waiters.map RaceWaiter.wake⟩ := by
  simp [wholeCall, play, step.eq_1, step_callAt_last, CancelCall.step, List.replicate, hdown,
    hwriter, hreaders]

theorem play_wholeCall_of_up (r : TokenRace) (reason : String) (hup : r.cell.flag = true)
    (hwriter : r.cell.writer = none) (hreaders : r.cell.readers = 0) :
    r.play (r.wholeCall reason) =
      { r with calls := r.calls ++ [⟨reason, .returned false⟩] } := by
  rcases r with ⟨⟨flag, reason₀, writer, readers⟩, calls, observers, waiters⟩
  subst hup hwriter hreaders
  simp [wholeCall, play, step.eq_1, step_callAt_last, CancelCall.step, List.replicate]

/-- While somebody reads, the call waits for the lock. -/
theorem play_wholeCall_of_read (r : TokenRace) (reason : String) (hreaders : r.cell.readers ≠ 0) :
    r.play (r.wholeCall reason) = { r with calls := r.calls ++ [⟨reason, .entered⟩] } := by
  rcases r with ⟨⟨flag, reason₀, writer, readers⟩, calls, observers, waiters⟩
  simp only [ne_eq] at hreaders
  simp [wholeCall, play, step.eq_1, step_callAt_last, CancelCall.step, List.replicate, hreaders]

/-- A waiter of whole calls, in the race: it never rests between its look and its sleep. -/
def inRace : Waiter → RaceWaiter
  | .starting => .starting
  | .registered woken => .registered woken
  | .parked woken => .parked woken
  | .finished => .finished

theorem inRace_wake (u : Waiter) : inRace u.wake = (inRace u).wake := by
  cases u <;> rfl

/-- The race stands where the whole calls stand, and nobody has the lock. -/
structure Mirrors (r : TokenRace) (w : Waiting) : Prop where
  cell : r.cell = { flag := w.token.isCancelled, reason := w.token.reason }
  waiters : r.waiters = w.waiters.map inRace

theorem Mirrors.cancel (h : r.Mirrors w) (reason : String) :
    (r.play (r.wholeCall reason)).Mirrors (w.cancel reason).1 := by
  cases hr : w.token.reason with
  | none =>
    rw [Waiting.cancel_of_none hr, play_wholeCall_of_down r reason]
    · refine ⟨by simp [h.cell, CancellationToken.isCancelled], ?_⟩
      simp [h.waiters, inRace_wake]
    · simp [h.cell, CancellationToken.isCancelled, hr]
    · simp [h.cell]
    · simp [h.cell]
  | some first =>
    rw [Waiting.cancel_of_some hr, play_wholeCall_of_up r reason]
    · exact ⟨h.cell, h.waiters⟩
    · simp [h.cell, CancellationToken.isCancelled, hr]
    · simp [h.cell]
    · simp [h.cell]

/-- A step of a waiter is one step in the race, or two where it looks and goes to sleep. -/
theorem inRace_step (cell : TokenCell) (t : CancellationToken) (ht : cell.flag = t.isCancelled)
    (u : Waiter) :
    (inRace u).step cell = inRace (u.step t) ∨
      ((inRace u).step cell).step cell = inRace (u.step t) := by
  cases u with
  | starting => exact .inl rfl
  | registered woken =>
    cases hup : t.isCancelled with
    | true =>
      left
      simp [inRace, RaceWaiter.step, Waiter.step, ht, hup]
    | false =>
      right
      simp [inRace, RaceWaiter.step, Waiter.step, ht, hup]
  | parked woken => cases woken <;> exact .inl rfl
  | finished => exact .inl rfl

theorem Mirrors.stepAt (h : r.Mirrors w) (i : Nat) :
    ∃ steps, (r.play steps).Mirrors (w.stepAt i) := by
  have hmodify := List.modify_eq_set_getElem? (Waiter.step w.token) i w.waiters
  cases hu : w.waiters[i]? with
  | none =>
    simp only [hu, Option.map_eq_map, Option.map_none, Option.getD_none] at hmodify
    exact ⟨[], h.cell, by simp only [Waiting.stepAt, hmodify]; exact h.waiters⟩
  | some u =>
    simp only [hu, Option.map_eq_map, Option.map_some, Option.getD_some] at hmodify
    have hv : r.waiters[i]? = some (inRace u) := by simp [h.waiters, hu]
    have hlt := (List.getElem?_eq_some_iff.mp hv).1
    have hflag : r.cell.flag = w.token.isCancelled := by rw [h.cell]
    rcases inRace_step r.cell w.token hflag u with hone | htwo
    · refine ⟨[.waitAt i], ?_⟩
      simp only [play, List.foldl_cons, List.foldl_nil, step_waitAt hv, Waiting.stepAt, hmodify]
      exact ⟨h.cell, by simp [hone, h.waiters, List.map_set]⟩
    · refine ⟨[.waitAt i, .waitAt i], ?_⟩
      simp only [play, List.foldl_cons, List.foldl_nil, step_waitAt hv]
      rw [step_waitAt (by exact List.getElem?_set_self hlt)]
      simp only [Waiting.stepAt, hmodify]
      exact ⟨h.cell, by simp [htwo, h.waiters, List.map_set]⟩

theorem Mirrors.spawn (h : r.Mirrors w) : (r.step .wait).Mirrors w.spawn := by
  refine ⟨h.cell, ?_⟩
  simp [TokenRace.step, Waiting.spawn, h.waiters, inRace]

theorem mirrors_start : Mirrors {} {} := ⟨rfl, rfl⟩

/-- Every run of whole calls is a race. -/
theorem whole_calls_are_a_race (acts : List WaitingAct) :
    ∃ steps, (play {} steps).Mirrors (Waiting.after {} acts) := by
  suffices hall : ∀ (w : Waiting) (before : List RaceStep), (play {} before).Mirrors w →
      ∃ steps, (play {} steps).Mirrors (w.after acts) from hall {} [] mirrors_start
  induction acts with
  | nil => exact fun w before h => ⟨before, h⟩
  | cons a rest ih =>
    intro w before h
    have hnext : ∃ steps, ((play {} before).play steps).Mirrors (w.act a) := by
      cases a with
      | cancel reason => exact ⟨_, h.cancel reason⟩
      | spawn => exact ⟨[.wait], h.spawn⟩
      | stepAt i => exact h.stepAt i
    obtain ⟨steps, hsteps⟩ := hnext
    rw [← play_append] at hsteps
    exact ih (w.act a) (before ++ steps) hsteps

end TokenRace

end Provisioning
