-- What a race comes to: every call returns, one of them was the first, its reason is the
-- one that stays, and everybody who waits is woken.
import Mathlib.Algebra.GroupWithZero.Nat
import Provisioning.Proofs.Cancellation.WholeCalls

namespace Provisioning

/-! ## Nobody is locked out -/

/-- How many steps a call has before it. -/
def CallPlace.stepsLeft : CallPlace → Nat
  | .entered => 5
  | .locked => 4
  | .marked => 3
  | .stored => 2
  | .unlocked => 1
  | .refused => 1
  | .returned _ => 0

def TokenObserver.stepsLeft : TokenObserver → Nat
  | .starting => 4
  | .looked _ => 3
  | .reading _ => 2
  | .copied _ _ => 1
  | .done _ _ => 0

/-- How many steps a waiter has before it, once the flag is up and it is woken. -/
def RaceWaiter.stepsLeft : RaceWaiter → Nat
  | .checked _ => 4
  | .parked _ => 3
  | .starting => 2
  | .registered _ => 1
  | .finished => 0

/-- A step by a call or an observer that is there already. -/
def RaceStep.IsTurn : RaceStep → Prop
  | .callAt _ => True
  | .observeAt _ => True
  | _ => False

theorem sum_map_set_lt {α : Type} {f : α → Nat} {l : List α} {i : Nat} {a b : α}
    (hi : l[i]? = some a) (hlt : f b < f a) : ((l.set i b).map f).sum < (l.map f).sum := by
  induction l generalizing i with
  | nil => simp at hi
  | cons x rest ih =>
    cases i with
    | zero =>
      simp only [List.getElem?_cons_zero, Option.some.injEq] at hi
      subst hi
      simpa using hlt
    | succ j =>
      simp only [List.getElem?_cons_succ] at hi
      simpa using ih hi

namespace TokenRace

variable {r : TokenRace} {winner : Option Nat} {i : Nat}

def stepsLeft (r : TokenRace) : Nat :=
  (r.calls.map (·.place.stepsLeft)).sum + (r.observers.map TokenObserver.stepsLeft).sum

def AllReturned (r : TokenRace) : Prop :=
  ∀ c ∈ r.calls, ∃ first, c.place = .returned first

theorem stepsLeft_of_call {c : CancelCall} (hc : r.calls[i]? = some c)
    (hlt : (c.step i r.cell).2.place.stepsLeft < c.place.stepsLeft) :
    (r.step (.callAt i)).stepsLeft < r.stepsLeft := by
  rw [step_callAt hc]
  have hless := sum_map_set_lt (f := fun c : CancelCall => c.place.stepsLeft) hc hlt
  exact Nat.add_lt_add_right hless _

theorem stepsLeft_of_observer {o : TokenObserver} (ho : r.observers[i]? = some o)
    (hlt : (o.step r.cell).2.stepsLeft < o.stepsLeft) :
    (r.step (.observeAt i)).stepsLeft < r.stepsLeft := by
  rw [step_observeAt ho]
  have hless := sum_map_set_lt (f := TokenObserver.stepsLeft) ho hlt
  exact Nat.add_lt_add_left hless _

/-- A call moves on unless it waits for the lock. -/
theorem CancelCall.stepsLeft_lt {cell : TokenCell} {c : CancelCall}
    (hc : ¬ ∃ first, c.place = .returned first)
    (hfree : c.place = .entered → cell.writer = none ∧ cell.readers = 0) :
    (c.step i cell).2.place.stepsLeft < c.place.stepsLeft := by
  rcases c with ⟨reason, place⟩
  cases place with
  | entered => simp [CancelCall.step, hfree rfl, CallPlace.stepsLeft]
  | locked =>
    unfold CancelCall.step
    cases cell.flag <;> simp [CallPlace.stepsLeft]
  | returned first => exact absurd ⟨first, rfl⟩ hc
  | refused => simp [CancelCall.step, CallPlace.stepsLeft]
  | marked => simp [CancelCall.step, CallPlace.stepsLeft]
  | stored => simp [CancelCall.step, CallPlace.stepsLeft]
  | unlocked => simp [CancelCall.step, CallPlace.stepsLeft]

/-- While a call has not returned, somebody can move: whoever has the lock, or the call
itself. -/
theorem Sound.exists_turn (h : r.Sound winner) (hleft : ¬ r.AllReturned) :
    ∃ a : RaceStep, a.IsTurn ∧ (r.step a).stepsLeft < r.stepsLeft := by
  cases hw : r.cell.writer with
  | some i =>
    -- the call that has the lock
    have hc := List.getElem?_eq_getElem (h.writer_is_there i hw)
    have hfit := h.calls_fit i _ hc
    refine ⟨.callAt i, trivial, stepsLeft_of_call hc (CancelCall.stepsLeft_lt ?_ ?_)⟩
    · rintro ⟨first, hplace⟩
      cases first <;> simp [CallFits, hplace, hw] at hfit
    · intro hplace
      simp [CallFits, hplace, hw] at hfit
  | none =>
    by_cases hr : r.cell.readers = 0
    · -- nobody has it: the call that has not returned
      simp only [AllReturned, not_forall, not_exists] at hleft
      obtain ⟨c, hmem, hnot⟩ := hleft
      obtain ⟨i, hc⟩ := List.getElem?_of_mem hmem
      refine ⟨.callAt i, trivial, stepsLeft_of_call hc (CancelCall.stepsLeft_lt ?_ ?_)⟩
      · rintro ⟨first, hplace⟩
        exact hnot first hplace
      · exact fun _ => ⟨hw, hr⟩
    · -- an observer that reads
      have hpos : 0 < r.observers.countP TokenObserver.holdsLock := by
        rw [← h.readers_counted]
        omega
      obtain ⟨o, hmem, hholds⟩ := List.countP_pos_iff.mp hpos
      obtain ⟨i, ho⟩ := List.getElem?_of_mem hmem
      refine ⟨.observeAt i, trivial, stepsLeft_of_observer ho ?_⟩
      cases o with
      | reading seen => simp [TokenObserver.step, TokenObserver.stepsLeft]
      | copied seen told => simp [TokenObserver.step, TokenObserver.stepsLeft]
      | starting => simp [TokenObserver.holdsLock] at hholds
      | looked seen => simp [TokenObserver.holdsLock] at hholds
      | done seen told => simp [TokenObserver.holdsLock] at hholds

/-- The calls can always be brought to return, without anybody new. -/
theorem Sound.exists_return (h : r.Sound winner) :
    ∃ more : List RaceStep, (∀ a ∈ more, a.IsTurn) ∧ (r.play more).AllReturned := by
  induction hn : r.stepsLeft using Nat.strongRecOn generalizing r winner with
  | ind n ih =>
    by_cases hleft : r.AllReturned
    · exact ⟨[], by simp, hleft⟩
    · obtain ⟨a, hturn, hless⟩ := h.exists_turn hleft
      obtain ⟨winner', h', -⟩ := h.step a
      obtain ⟨more, hmore, hall⟩ := ih _ (hn ▸ hless) h' rfl
      refine ⟨a :: more, ?_, hall⟩
      intro b hb
      rcases List.mem_cons.mp hb with rfl | hb
      · exact hturn
      · exact hmore b hb

/-! ## What stays -/

/-- A call keeps its reason, and what it has returned. -/
theorem exists_call_of_step {c : CancelCall} (hc : r.calls[i]? = some c) (a : RaceStep) :
    ∃ d, (r.step a).calls[i]? = some d ∧ d.reason = c.reason ∧
      ∀ first, c.place = .returned first → d.place = .returned first := by
  have hsame : ∃ d, r.calls[i]? = some d ∧ d.reason = c.reason ∧
      ∀ first, c.place = .returned first → d.place = .returned first :=
    ⟨c, hc, rfl, fun _ hplace => hplace⟩
  have hlt := (List.getElem?_eq_some_iff.mp hc).1
  cases a with
  | call reason =>
    refine ⟨c, ?_, rfl, fun _ hplace => hplace⟩
    simp only [step, List.getElem?_append_left hlt, hc]
  | callAt j =>
    cases hd : r.calls[j]? with
    | none => simpa only [step, hd] using hsame
    | some d =>
      rw [step_callAt hd]
      by_cases hji : j = i
      · subst hji
        obtain rfl : c = d := Option.some.inj (hc.symm.trans hd)
        refine ⟨_, List.getElem?_set_self hlt, reason_of_step _ _ _, ?_⟩
        intro first hplace
        simp [CancelCall.step, hplace]
      · simpa only [List.getElem?_set_ne hji] using hsame
  | observe => exact hsame
  | observeAt j => simpa only [calls_observeAt] using hsame
  | wait => exact hsame
  | waitAt j => simpa only [calls_waitAt] using hsame

/-- The first call has the say as soon as it has returned. -/
theorem Sound.reason_of_returned (h : r.Sound winner) {c : CancelCall} (hc : r.calls[i]? = some c)
    (hplace : c.place = .returned true) : r.cell.reason = some c.reason := by
  have hfit := h.calls_fit i c hc
  simp only [CallFits, hplace] at hfit
  exact hfit.2.2

/-- Nothing that happens takes a reason away or puts another in its place. -/
theorem Sound.reason_of_step (h : r.Sound winner) {reason : String}
    (hr : r.cell.reason = some reason) (a : RaceStep) : (r.step a).cell.reason = some reason := by
  cases a with
  | callAt i =>
    cases hc : r.calls[i]? with
    | none => simpa only [TokenRace.step, hc] using hr
    | some c =>
      obtain ⟨winner', hm, -⟩ := step_moves h hc
      rw [step_callAt hc]
      exact hm.reason_stays reason hr
  | observeAt i =>
    cases ho : r.observers[i]? with
    | none => simpa only [TokenRace.step, ho] using hr
    | some o =>
      rw [step_observeAt ho, (observer_moves h (List.mem_of_getElem? ho)).only_readers]
      exact hr
  | waitAt i =>
    simp only [TokenRace.step]
    split <;> exact hr
  | call reason => exact hr
  | observe => exact hr
  | wait => exact hr

theorem Sound.reason_of_play (h : r.Sound winner) {reason : String}
    (hr : r.cell.reason = some reason) (more : List RaceStep) :
    (r.play more).cell.reason = some reason := by
  induction more generalizing r winner with
  | nil => exact hr
  | cons a rest ih =>
    obtain ⟨winner', h', -⟩ := h.step a
    exact ih h' (h.reason_of_step hr a)

/-! ## Waiters end -/

theorem stepsLeft_wake (w : RaceWaiter) : w.wake.stepsLeft = w.stepsLeft := by
  cases w <;> rfl

/-- With the flag up, a waiter that is not left asleep gets on with each of its steps. -/
theorem stepsLeft_step {cell : TokenCell} (hup : cell.flag = true) {w : RaceWaiter}
    (hw : ¬ w.Unwoken) : (w.step cell).stepsLeft = w.stepsLeft - 1 := by
  cases w with
  | starting => rfl
  | registered woken => simp [RaceWaiter.step, hup, RaceWaiter.stepsLeft]
  | checked woken => rfl
  | parked woken =>
    cases woken with
    | true => rfl
    | false => exact absurd (.inr rfl) hw
  | finished => rfl

/-- Only its own steps bring a waiter on. -/
theorem exists_waiter_of_step (hup : r.cell.flag = true) {k : Nat} {w : RaceWaiter}
    (hw : r.waiters[k]? = some w) (hawake : ¬ w.Unwoken) (a : RaceStep) :
    ∃ v, (r.step a).waiters[k]? = some v ∧
      v.stepsLeft ≤ w.stepsLeft - (if a = .waitAt k then 1 else 0) := by
  have hlt := (List.getElem?_eq_some_iff.mp hw).1
  cases a with
  | call reason => exact ⟨w, hw, by simp⟩
  | callAt i =>
    cases hc : r.calls[i]? with
    | none => exact ⟨w, by simp only [step, hc, hw], by simp⟩
    | some c =>
      rw [step_callAt hc]
      simp only
      split
      · exact ⟨w.wake, by simp [hw], by simp [stepsLeft_wake]⟩
      · exact ⟨w, hw, by simp⟩
  | observe => exact ⟨w, hw, by simp⟩
  | observeAt i => exact ⟨w, by rw [waiters_observeAt, hw], by simp⟩
  | wait => exact ⟨w, by simp only [step, List.getElem?_append_left hlt, hw], by simp⟩
  | waitAt j =>
    by_cases hjk : j = k
    · subst hjk
      rw [step_waitAt hw]
      exact ⟨_, List.getElem?_set_self hlt, by simp [stepsLeft_step hup hawake]⟩
    · refine ⟨w, ?_, by simp [hjk]⟩
      simp only [step]
      split
      · exact hw
      · simp only [List.getElem?_set_ne hjk, hw]

/-- Once the first call has returned, a waiter ends with its fourth step at the latest,
whatever else happens. -/
theorem Sound.waiter_ends (h : r.Sound winner) (hr : r.CallAt i (.returned true)) {k : Nat}
    {w : RaceWaiter} (hw : r.waiters[k]? = some w) (more : List RaceStep)
    (hturns : w.stepsLeft ≤ more.count (.waitAt k)) :
    (r.play more).waiters[k]? = some .finished := by
  induction more generalizing r winner w with
  | nil =>
    cases w <;> simp [RaceWaiter.stepsLeft] at hturns
    exact hw
  | cons a rest ih =>
    have hwon : winner ≠ none := by simp [h.winner_of_returned hr]
    obtain ⟨v, hv, hless⟩ := exists_waiter_of_step (h.flag_iff.mpr hwon) hw
      (h.none_unwoken ⟨i, hr⟩ w (List.mem_of_getElem? hw)) a
    obtain ⟨winner', h', -⟩ := h.step a
    obtain ⟨c, hc, hplace⟩ := hr
    obtain ⟨d, hd, -, hreturned⟩ := exists_call_of_step hc a
    refine ih h' ⟨d, hd, hreturned true hplace⟩ hv ?_
    rw [List.count_cons] at hturns
    by_cases ha : a = .waitAt k
    · simp only [ha, beq_self_eq_true, if_true] at hturns hless
      omega
    · have hb : (a == .waitAt k) = false := beq_eq_false_iff_ne.mpr ha
      simp only [hb, Bool.false_eq_true, if_false] at hturns
      simp only [ha, if_false] at hless
      omega

/-! ## What every race comes to -/

/-- Call `i` put the flag up, whatever it still has to do. -/
def HasCancelled (r : TokenRace) (i : Nat) : Prop :=
  r.CallAt i .marked ∨ r.CallAt i .stored ∨ r.CallAt i .unlocked ∨ r.CallAt i (.returned true)

/-- No call is under way: each has yet to take the lock or has returned. -/
def NoneUnderWay (r : TokenRace) : Prop :=
  ∀ c ∈ r.calls, c.place = .entered ∨ ∃ first, c.place = .returned first

/-- What is known of a race at one of its moments, and of all that may follow. -/
structure Settled (r : TokenRace) : Prop where
  one_is_first : ∀ i j, r.CallAt i (.returned true) → r.CallAt j (.returned true) → i = j
  some_is_first : r.calls ≠ [] → r.AllReturned → ∃! i, r.CallAt i (.returned true)
  calls_can_return : ∃ more : List RaceStep, (∀ a ∈ more, a.IsTurn) ∧ (r.play more).AllReturned
  reason_is_kept : ∀ (i : Nat) (c : CancelCall), r.calls[i]? = some c → c.place = .returned true →
    ∀ more, (r.play more).cell.reason = some c.reason
  /-- Who has seen the flag up reads the reason of the call that is the first to return so. -/
  observers_agree : ∀ told, .done true told ∈ r.observers →
    ∃ reason, told = some reason ∧
      ∀ more (i : Nat) (c : CancelCall), (r.play more).calls[i]? = some c →
        c.place = .returned true → c.reason = reason
  /-- Whatever the call says that has returned, if none is under way. A call that was refused
  can return while the first one is still on its way. -/
  none_is_left_asleep : ∀ i first, r.CallAt i (.returned first) → first = true ∨ r.NoneUnderWay →
    ∀ w ∈ r.waiters, ¬ w.Unwoken
  /-- Even then the first one has just its last step to do, which wakes everybody. -/
  wake_is_due : ∀ i first, r.CallAt i (.returned first) → (∃ w ∈ r.waiters, w.Unwoken) →
    ∃ j, r.CallAt j .unlocked ∧ (r.step (.callAt j)).CallAt j (.returned true)
  waiters_end : ∀ i first, r.CallAt i (.returned first) → first = true ∨ r.NoneUnderWay →
    ∀ k < r.waiters.length, ∀ more : List RaceStep, 4 ≤ more.count (.waitAt k) →
      (r.play more).waiters[k]? = some .finished
  none_ends_before : .finished ∈ r.waiters → ∃ i, r.HasCancelled i
  whole_calls_leave_none : r.NoneUnderWay → ∀ reason, (r.play (r.wholeCall reason)).NoneUnderWay

theorem Sound.place_of_winner (h : r.Sound (some i)) : r.HasCancelled i := by
  have hc := List.getElem?_eq_getElem (h.winner_is_there i rfl)
  have hfit := h.calls_fit i _ hc
  unfold CallFits at hfit
  split at hfit
  · exact absurd rfl hfit.2
  · exact absurd rfl hfit.2
  · exact absurd rfl hfit.2.1
  · exact .inl ⟨_, hc, ‹_›⟩
  · exact .inr (.inl ⟨_, hc, ‹_›⟩)
  · exact .inr (.inr (.inl ⟨_, hc, ‹_›⟩))
  · exact .inr (.inr (.inr ⟨_, hc, ‹_›⟩))
  · exact absurd rfl hfit.2.1

/-- A call that has returned, whatever it says, knows that somebody has won and has
given the lock back. -/
theorem Sound.won_of_returned (h : r.Sound winner) {first : Bool}
    (hr : r.CallAt i (.returned first)) :
    ∃ j, winner = some j ∧ (r.CallAt j .unlocked ∨ r.CallAt j (.returned true)) := by
  cases first with
  | true => exact ⟨i, h.winner_of_returned hr, .inr hr⟩
  | false =>
    obtain ⟨c, hc, hplace⟩ := hr
    have hfit := h.calls_fit i c hc
    simp only [CallFits, hplace] at hfit
    obtain ⟨-, -, hwon, hback⟩ := hfit
    obtain ⟨j, rfl⟩ := Option.ne_none_iff_exists'.mp hwon
    refine ⟨j, rfl, ?_⟩
    rcases h.place_of_winner with hmarked | hstored | hdone
    · obtain ⟨d, hd, hplace⟩ := hmarked
      have hfit := h.calls_fit j d hd
      simp only [CallFits, hplace] at hfit
      exact absurd hfit.1 hback
    · obtain ⟨d, hd, hplace⟩ := hstored
      have hfit := h.calls_fit j d hd
      simp only [CallFits, hplace] at hfit
      exact absurd hfit.1 hback
    · exact hdone

/-- The first call has returned, if that one was it or none is under way. -/
theorem Sound.exists_first (h : r.Sound winner) {first : Bool} (hr : r.CallAt i (.returned first))
    (hdone : first = true ∨ r.NoneUnderWay) : ∃ j, r.CallAt j (.returned true) := by
  rcases hdone with rfl | hnone
  · exact ⟨i, hr⟩
  · obtain ⟨j, -, ⟨d, hd, hplace⟩ | hfirst⟩ := h.won_of_returned hr
    · have hquiet := hnone d (List.mem_of_getElem? hd)
      simp [hplace] at hquiet
    · exact ⟨j, hfirst⟩

theorem NoneUnderWay.snoc (h : r.NoneUnderWay) {r' : TokenRace} {c : CancelCall}
    (hcalls : r'.calls = r.calls ++ [c])
    (hc : c.place = .entered ∨ ∃ first, c.place = .returned first) : r'.NoneUnderWay := by
  intro d hd
  rw [hcalls, List.mem_append, List.mem_singleton] at hd
  rcases hd with hd | rfl
  · exact h d hd
  · exact hc

/-- A call that nobody interrupts does not start while somebody reads, and else returns. -/
theorem Sound.noneUnderWay_wholeCall (h : r.Sound winner) (hnone : r.NoneUnderWay)
    (reason : String) : (r.play (r.wholeCall reason)).NoneUnderWay := by
  have hwriter : r.cell.writer = none := by
    by_contra hsome
    obtain ⟨i, hi⟩ := Option.ne_none_iff_exists'.mp hsome
    have hc := List.getElem?_eq_getElem (h.writer_is_there i hi)
    have hfit := h.calls_fit i _ hc
    rcases hnone _ (List.mem_of_getElem? hc) with hplace | ⟨first, hplace⟩
    · simp [CallFits, hplace, hi] at hfit
    · cases first <;> simp [CallFits, hplace, hi] at hfit
  by_cases hreaders : r.cell.readers = 0
  · cases hflag : r.cell.flag with
    | false =>
      rw [play_wholeCall_of_down r reason hflag hwriter hreaders]
      exact hnone.snoc rfl (.inr ⟨true, rfl⟩)
    | true =>
      rw [play_wholeCall_of_up r reason hflag hwriter hreaders]
      exact hnone.snoc rfl (.inr ⟨false, rfl⟩)
  · rw [play_wholeCall_of_read r reason hreaders]
    exact hnone.snoc rfl (.inl rfl)

theorem Sound.settled (h : r.Sound winner) : r.Settled where
  one_is_first := by
    intro i j hi hj
    have hwin := h.winner_of_returned hi
    rw [h.winner_of_returned hj] at hwin
    exact (Option.some.inj hwin).symm
  some_is_first := by
    intro hsome hall
    obtain ⟨c, hmem⟩ := List.exists_mem_of_ne_nil _ hsome
    obtain ⟨i, hc⟩ := List.getElem?_of_mem hmem
    obtain ⟨first, hplace⟩ := hall c hmem
    obtain ⟨j, hwin, hunlocked | hfirst⟩ := h.won_of_returned ⟨c, hc, hplace⟩
    · obtain ⟨d, hd, hplace'⟩ := hunlocked
      obtain ⟨b, hb⟩ := hall d (List.mem_of_getElem? hd)
      rw [hplace'] at hb
      contradiction
    · refine ⟨j, hfirst, ?_⟩
      intro k hk
      rw [h.winner_of_returned hk] at hwin
      exact Option.some.inj hwin
  calls_can_return := h.exists_return
  reason_is_kept := by
    intro i c hc hplace more
    exact h.reason_of_play (h.reason_of_returned hc hplace) more
  observers_agree := by
    intro told htold
    obtain ⟨hread, hsome⟩ := h.observers_fit _ htold rfl
    obtain ⟨reason, hreason⟩ := Option.ne_none_iff_exists'.mp hsome
    refine ⟨reason, hreason, ?_⟩
    intro more i c hc hplace
    obtain ⟨winner', h', -⟩ := h.play more
    have hkept := h.reason_of_play (hread.symm.trans hreason) more
    rw [h'.reason_of_returned hc hplace] at hkept
    exact Option.some.inj hkept
  none_is_left_asleep := fun i first hi hdone => h.none_unwoken (h.exists_first hi hdone)
  wake_is_due := by
    rintro i first hi ⟨w, hw, hasleep⟩
    obtain ⟨j, -, hunlocked | hfirst⟩ := h.won_of_returned hi
    · refine ⟨j, hunlocked, ?_⟩
      obtain ⟨d, hd, hplace⟩ := hunlocked
      rw [step_callAt hd]
      refine ⟨_, List.getElem?_set_self (List.getElem?_eq_some_iff.mp hd).1, ?_⟩
      simp [CancelCall.step, hplace]
    · exact absurd hasleep (h.none_unwoken ⟨j, hfirst⟩ w hw)
  waiters_end := by
    intro i first hi hdone k hk more hturns
    obtain ⟨j, hj⟩ := h.exists_first hi hdone
    refine h.waiter_ends hj (List.getElem?_eq_getElem hk) more (Nat.le_trans ?_ hturns)
    cases r.waiters[k] <;> simp [RaceWaiter.stepsLeft]
  none_ends_before := by
    intro hended
    obtain ⟨i, rfl⟩ := Option.ne_none_iff_exists'.mp (h.flag_iff.mp (h.finished_after_flag hended))
    exact ⟨i, h.place_of_winner⟩
  whole_calls_leave_none := h.noneUnderWay_wholeCall

/-- However calls, observers and waiters mix their steps: one call cancels, its reason is
the one that is kept and read, every waiter that is there or comes ends and none ends
before; and all of it looks like calls made as a whole. -/
theorem one_call_cancels_and_every_waiter_ends (steps : List RaceStep) :
    (play {} steps).Settled ∧
      ∃ winner acts, (play {} steps).Tracks winner (Waiting.after {} acts) := by
  obtain ⟨winner, acts, hsound, htracks⟩ := looks_like_whole_calls steps
  exact ⟨hsound.settled, winner, acts, htracks⟩

/-! ### A refusal before the wake -/

/-- A waiter looks while the flag is down. The first call puts the flag up and gives the lock
back; a second call is refused and returns; then the waiter goes to sleep. -/
def refusalBeforeWake : List RaceStep :=
  [.wait, .waitAt 0, .waitAt 0, .call "closed", .call "late", .callAt 0, .callAt 0, .callAt 0,
    .callAt 0, .callAt 1, .callAt 1, .callAt 1, .waitAt 0]

/-- A call that is refused can return while a waiter sleeps whom nobody has woken. -/
theorem refused_call_returns_while_a_waiter_sleeps :
    let r := play {} refusalBeforeWake
    r.CallAt 1 (.returned false) ∧ r.waiters = [.parked false] ∧
      ¬ ∀ i first, r.CallAt i (.returned first) → ∀ w ∈ r.waiters, ¬ w.Unwoken := by
  intro r
  have hrefused : r.CallAt 1 (.returned false) := ⟨_, rfl, rfl⟩
  have hasleep : r.waiters = [.parked false] := by decide
  refine ⟨hrefused, hasleep, ?_⟩
  intro hall
  apply hall 1 false hrefused (.parked false)
  · rw [hasleep]
    exact List.mem_singleton_self _
  · exact .inr rfl

/-- With its last step the first call wakes the waiter, which ends then, and has the say. -/
theorem waiter_of_a_refusal_ends_after_the_first_call :
    let r := play {} (refusalBeforeWake ++ [.callAt 0])
    (r.CallAt 0 (.returned true) ∧ r.CallAt 1 (.returned false)) ∧
      (∀ w ∈ r.waiters, ¬ w.Unwoken) ∧ r.cell.reason = some "closed" ∧
      (r.play (List.replicate 4 (.waitAt 0))).waiters[0]? = some .finished := by
  intro r
  have hfirst : r.CallAt 0 (.returned true) := ⟨_, rfl, rfl⟩
  have hsettled := (one_call_cancels_and_every_waiter_ends (refusalBeforeWake ++ [.callAt 0])).1
  refine ⟨⟨hfirst, ⟨_, rfl, rfl⟩⟩, ?_, ?_, ?_⟩
  · exact hsettled.none_is_left_asleep 0 true hfirst (.inl rfl)
  · exact hsettled.reason_is_kept 0 ⟨"closed", .returned true⟩ rfl rfl []
  · exact hsettled.waiters_end 0 true hfirst (.inl rfl) 0 (by decide) _ (by decide)

end TokenRace

end Provisioning
