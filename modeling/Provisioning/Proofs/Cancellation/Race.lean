-- A cancellation in the middle of things. The calls of `cancel`, those who look at
-- the token and those who wait for it take their steps in any order, one at a time;
-- whatever the order, one call wins and its reason is the one that everybody reads.
import Mathlib.Data.List.Basic
import Provisioning.Cancellation

namespace Provisioning

/-! ## The token in its parts -/

/-- A token in its parts: the flag, the reason, and the lock that guards the reason,
held by one call that writes (known by its number) or by so many readers. -/
structure TokenCell where
  flag : Bool := false
  reason : Option String := none
  writer : Option Nat := none
  readers : Nat := 0
deriving DecidableEq, Repr

/-- How far a call of `cancel` has come. -/
inductive CallPlace
  | entered
  /-- Has the lock, has not yet tried the flag. -/
  | locked
  /-- Found the flag up; has yet to give the lock back. -/
  | refused
  /-- Put the flag up; has yet to write the reason. -/
  | marked
  | stored
  /-- Gave the lock back; has yet to wake those who wait. -/
  | unlocked
  | returned (first : Bool)
deriving DecidableEq, Repr

structure CancelCall where
  reason : String
  place : CallPlace := .entered
deriving DecidableEq, Repr

/-- One step of the call with number `i`. While someone else has the lock, a call
that wants it stays where it is. -/
def CancelCall.step (i : Nat) (cell : TokenCell) (c : CancelCall) : TokenCell × CancelCall :=
  match c.place with
  | .entered =>
    if cell.writer = none ∧ cell.readers = 0 then
      ({ cell with writer := some i }, { c with place := .locked })
    else (cell, c)
  | .locked =>
    if cell.flag then (cell, { c with place := .refused })
    else ({ cell with flag := true }, { c with place := .marked })
  | .refused => ({ cell with writer := none }, { c with place := .returned false })
  | .marked => ({ cell with reason := some c.reason }, { c with place := .stored })
  | .stored => ({ cell with writer := none }, { c with place := .unlocked })
  | .unlocked => (cell, { c with place := .returned true })
  | .returned _ => (cell, c)

/-- Someone who looks at the flag and then reads the reason. -/
inductive TokenObserver
  | starting
  | looked (seen : Bool)
  /-- Has the lock for reading. -/
  | reading (seen : Bool)
  /-- Has copied the reason; has yet to give the lock back. -/
  | copied (seen : Bool) (told : Option String)
  | done (seen : Bool) (told : Option String)
deriving DecidableEq, Repr

namespace TokenObserver

/-- One step of an observer; it waits while a call has the lock. -/
def step (cell : TokenCell) : TokenObserver → TokenCell × TokenObserver
  | starting => (cell, looked cell.flag)
  | looked seen =>
    if cell.writer = none then ({ cell with readers := cell.readers + 1 }, reading seen)
    else (cell, looked seen)
  | reading seen => (cell, copied seen cell.reason)
  | copied seen told => ({ cell with readers := cell.readers - 1 }, done seen told)
  | done seen told => (cell, done seen told)

def holdsLock : TokenObserver → Bool
  | reading _ => true
  | copied _ _ => true
  | _ => false

end TokenObserver

/-- A waiter whose look at the flag and whose going to sleep are two steps. -/
inductive RaceWaiter
  | starting
  | registered (woken : Bool)
  /-- Found the flag down; not yet asleep. -/
  | checked (woken : Bool)
  | parked (woken : Bool)
  | finished
deriving DecidableEq, Repr

namespace RaceWaiter

def step (cell : TokenCell) : RaceWaiter → RaceWaiter
  | starting => registered false
  | registered woken => if cell.flag then finished else checked woken
  | checked woken => parked woken
  | parked true => starting
  | w => w

/-- Wakes everyone who has asked to be woken, whether asleep already or not. -/
def wake : RaceWaiter → RaceWaiter
  | registered _ => registered true
  | checked _ => checked true
  | parked _ => parked true
  | w => w

/-- Nobody has woken it, though it has found the flag down. -/
def Unwoken (w : RaceWaiter) : Prop := w = checked false ∨ w = parked false

instance (w : RaceWaiter) : Decidable w.Unwoken := by unfold Unwoken; infer_instance

end RaceWaiter

/-! ## The race -/

/-- A token and all who are at it. -/
structure TokenRace where
  cell : TokenCell := {}
  calls : List CancelCall := []
  observers : List TokenObserver := []
  waiters : List RaceWaiter := []
deriving DecidableEq, Repr

/-- What can happen next: someone new comes, or someone who is there takes a step. -/
inductive RaceStep
  | call (reason : String)
  | callAt (i : Nat)
  | observe
  | observeAt (i : Nat)
  | wait
  | waitAt (i : Nat)
deriving DecidableEq, Repr

namespace TokenRace

/-- One step. The last step of the call that put the flag up wakes those who wait. -/
def step (r : TokenRace) : RaceStep → TokenRace
  | .call reason => { r with calls := r.calls ++ [{ reason }] }
  | .callAt i =>
    match r.calls[i]? with
    | none => r
    | some c =>
      { r with
        cell := (c.step i r.cell).1
        calls := r.calls.set i (c.step i r.cell).2
        waiters := if c.place = .unlocked then r.waiters.map RaceWaiter.wake else r.waiters }
  | .observe => { r with observers := r.observers ++ [.starting] }
  | .observeAt i =>
    match r.observers[i]? with
    | none => r
    | some o =>
      { r with cell := (o.step r.cell).1, observers := r.observers.set i (o.step r.cell).2 }
  | .wait => { r with waiters := r.waiters ++ [.starting] }
  | .waitAt i =>
    match r.waiters[i]? with
    | none => r
    | some w => { r with waiters := r.waiters.set i (w.step r.cell) }

def play (r : TokenRace) (steps : List RaceStep) : TokenRace := steps.foldl step r

theorem play_append (r : TokenRace) (steps more : List RaceStep) :
    r.play (steps ++ more) = (r.play steps).play more :=
  List.foldl_append

/-- Call `i` has come as far as `place`. -/
def CallAt (r : TokenRace) (i : Nat) (place : CallPlace) : Prop :=
  ∃ c, r.calls[i]? = some c ∧ c.place = place

theorem step_callAt {r : TokenRace} {i : Nat} {c : CancelCall} (hc : r.calls[i]? = some c) :
    r.step (.callAt i) =
      { r with
        cell := (c.step i r.cell).1
        calls := r.calls.set i (c.step i r.cell).2
        waiters := if c.place = .unlocked then r.waiters.map RaceWaiter.wake else r.waiters } := by
  simp only [step, hc]

theorem step_observeAt {r : TokenRace} {i : Nat} {o : TokenObserver} (ho : r.observers[i]? = some o) :
    r.step (.observeAt i) =
      { r with cell := (o.step r.cell).1, observers := r.observers.set i (o.step r.cell).2 } := by
  simp only [step, ho]

theorem step_waitAt {r : TokenRace} {i : Nat} {w : RaceWaiter} (hw : r.waiters[i]? = some w) :
    r.step (.waitAt i) = { r with waiters := r.waiters.set i (w.step r.cell) } := by
  simp only [step, hw]

@[simp] theorem calls_observeAt (r : TokenRace) (i : Nat) :
    (r.step (.observeAt i)).calls = r.calls := by
  simp only [step]
  split <;> rfl

@[simp] theorem calls_waitAt (r : TokenRace) (i : Nat) :
    (r.step (.waitAt i)).calls = r.calls := by
  simp only [step]
  split <;> rfl

@[simp] theorem waiters_observeAt (r : TokenRace) (i : Nat) :
    (r.step (.observeAt i)).waiters = r.waiters := by
  simp only [step]
  split <;> rfl

theorem eq_or_of_getElem?_snoc {α : Type} {l : List α} {a b : α} {j : Nat}
    (h : (l ++ [a])[j]? = some b) : l[j]? = some b ∨ (j = l.length ∧ b = a) := by
  rcases Nat.lt_trichotomy j l.length with hlt | rfl | hgt
  · rw [List.getElem?_append_left hlt] at h
    exact .inl h
  · rw [List.getElem?_concat_length] at h
    exact .inr ⟨rfl, (Option.some.inj h).symm⟩
  · rw [List.getElem?_eq_none (by simp; omega)] at h
    contradiction

/-- A step never changes what a call was given. -/
theorem reason_of_step (i : Nat) (cell : TokenCell) (c : CancelCall) :
    (c.step i cell).2.reason = c.reason := by
  rcases c with ⟨reason, place⟩
  cases place with
  | entered =>
    simp only [CancelCall.step]
    split <;> rfl
  | locked =>
    simp only [CancelCall.step]
    split <;> rfl
  | _ => rfl

/-! ## What is true at every moment -/

/-- What the place of call `i` says about the token, when `winner` is the call that
put the flag up. -/
def CallFits (cell : TokenCell) (winner : Option Nat) (i : Nat) (c : CancelCall) : Prop :=
  match c.place with
  | .entered => cell.writer ≠ some i ∧ winner ≠ some i
  | .locked => cell.writer = some i ∧ winner ≠ some i
  | .refused => cell.writer = some i ∧ winner ≠ some i ∧ winner ≠ none
  | .marked => cell.writer = some i ∧ winner = some i ∧ cell.reason = none
  | .stored => cell.writer = some i ∧ winner = some i ∧ cell.reason = some c.reason
  | .unlocked => cell.writer ≠ some i ∧ winner = some i ∧ cell.reason = some c.reason
  | .returned true => cell.writer ≠ some i ∧ winner = some i ∧ cell.reason = some c.reason
  | .returned false =>
    -- and the winner has given the lock back
    cell.writer ≠ some i ∧ winner ≠ some i ∧ winner ≠ none ∧ cell.writer ≠ winner

/-- What an observer has seen is so. -/
def ObserverFits (cell : TokenCell) : TokenObserver → Prop
  | .starting => True
  | .looked seen => seen = true → cell.flag = true
  | .reading seen => seen = true → cell.flag = true
  | .copied seen told => seen = true → told = cell.reason ∧ told ≠ none
  | .done seen told => seen = true → told = cell.reason ∧ told ≠ none

/-- The state of a race that `winner` has won, or that is still open. -/
structure Sound (r : TokenRace) (winner : Option Nat) : Prop where
  flag_iff : r.cell.flag = true ↔ winner ≠ none
  reason_of_open : winner = none → r.cell.reason = none
  winner_is_there : ∀ i, winner = some i → i < r.calls.length
  writer_is_there : ∀ i, r.cell.writer = some i → i < r.calls.length
  readers_counted : r.cell.readers = r.observers.countP TokenObserver.holdsLock
  lock_is_exclusive : r.cell.writer = none ∨ r.cell.readers = 0
  calls_fit : ∀ i c, r.calls[i]? = some c → CallFits r.cell winner i c
  observers_fit : ∀ o ∈ r.observers, ObserverFits r.cell o
  none_unwoken : (∃ i, r.CallAt i (.returned true)) → ∀ w ∈ r.waiters, ¬ w.Unwoken
  finished_after_flag : RaceWaiter.finished ∈ r.waiters → r.cell.flag = true

theorem sound_start : Sound {} none := by
  constructor <;> simp [CallAt]

/-! ## One step of a call -/

/-- What one step of call `i` may do to the token: it takes or gives back its own lock,
puts the flag up for itself, and never takes anything back. -/
structure CallMoves (i : Nat) (cell : TokenCell) (winner : Option Nat)
    (cell' : TokenCell) (winner' : Option Nat) : Prop where
  flag_iff : cell'.flag = true ↔ winner' ≠ none
  reason_of_open : winner' = none → cell'.reason = none
  winner_stays : winner ≠ none → winner' = winner
  winner_is_mine : ∀ j, j ≠ i → (winner' = some j ↔ winner = some j)
  writer_is_mine : ∀ j, j ≠ i → (cell'.writer = some j ↔ cell.writer = some j)
  readers_stay : cell'.readers = cell.readers
  lock_is_exclusive : cell'.writer = none ∨ cell'.readers = 0
  reason_stays : ∀ x, cell.reason = some x → cell'.reason = some x
  reason_is_mine : ∀ j, j ≠ i → winner = some j → cell'.reason = cell.reason
  lock_is_taken_once : winner ≠ none → cell.writer ≠ winner → cell'.writer ≠ winner

/-- The others do not notice. -/
theorem CallFits.of_other {i j : Nat} {cell cell' : TokenCell} {winner winner' : Option Nat}
    {d : CancelCall} (hd : CallFits cell winner j d)
    (hm : CallMoves i cell winner cell' winner') (hji : j ≠ i) :
    CallFits cell' winner' j d := by
  have hreason := hm.reason_is_mine j hji
  have hwriter := hm.writer_is_mine j hji
  have hwinner := hm.winner_is_mine j hji
  have hstays := hm.winner_stays
  have hlock := hm.lock_is_taken_once
  unfold CallFits at hd ⊢
  split at hd <;> simp_all

theorem ObserverFits.mono {cell cell' : TokenCell} {o : TokenObserver} (ho : ObserverFits cell o)
    (hflag : cell.flag = true → cell'.flag = true)
    (hreason : ∀ x, cell.reason = some x → cell'.reason = some x) : ObserverFits cell' o := by
  have htold : ∀ told : Option String, told = cell.reason ∧ told ≠ none →
      told = cell'.reason ∧ told ≠ none := by
    rintro told ⟨rfl, hsome⟩
    obtain ⟨x, hx⟩ := Option.ne_none_iff_exists'.mp hsome
    exact ⟨by rw [hx, hreason x hx], hsome⟩
  cases o with
  | starting => trivial
  | looked seen => exact fun hs => hflag (ho hs)
  | reading seen => exact fun hs => hflag (ho hs)
  | copied seen told => exact fun hs => htold told (ho hs)
  | done seen told => exact fun hs => htold told (ho hs)

variable {r : TokenRace} {winner : Option Nat} {i : Nat}

theorem CallMoves.stay (h : r.Sound winner) : CallMoves i r.cell winner r.cell winner where
  flag_iff := h.flag_iff
  reason_of_open := h.reason_of_open
  winner_stays _ := rfl
  winner_is_mine _ _ := Iff.rfl
  writer_is_mine _ _ := Iff.rfl
  readers_stay := rfl
  lock_is_exclusive := h.lock_is_exclusive
  reason_stays _ hx := hx
  reason_is_mine _ _ _ := rfl
  lock_is_taken_once _ hback := hback

theorem CallMoves.take (h : r.Sound winner) (hfree : r.cell.writer = none)
    (hnone : r.cell.readers = 0) (hnot : winner ≠ some i) :
    CallMoves i r.cell winner { r.cell with writer := some i } winner :=
  { CallMoves.stay h with
    writer_is_mine := by
      intro j hj
      simp [hfree, Ne.symm hj]
    lock_is_exclusive := .inr hnone
    lock_is_taken_once := fun _ _ => hnot.symm }

theorem CallMoves.give (h : r.Sound winner) (hmine : r.cell.writer = some i) :
    CallMoves i r.cell winner { r.cell with writer := none } winner :=
  { CallMoves.stay h with
    writer_is_mine := by
      intro j hj
      simp [hmine, Ne.symm hj]
    lock_is_exclusive := .inl rfl
    lock_is_taken_once := fun hwon _ => hwon.symm }

theorem CallMoves.mark (h : r.Sound winner) (hopen : winner = none) :
    CallMoves i r.cell winner { r.cell with flag := true } (some i) :=
  { CallMoves.stay h with
    flag_iff := by simp
    reason_of_open := by simp
    winner_stays := fun hwon => absurd hopen hwon
    winner_is_mine := by
      intro j hj
      simp [hopen, Ne.symm hj] }

theorem CallMoves.write (h : r.Sound (some i)) (reason : String) (hempty : r.cell.reason = none) :
    CallMoves i r.cell (some i) { r.cell with reason := some reason } (some i) :=
  { CallMoves.stay h with
    reason_of_open := by simp
    reason_stays := by
      intro x hx
      rw [hempty] at hx
      contradiction
    reason_is_mine := by
      intro j hj hwon
      exact absurd (Option.some.inj hwon).symm hj }

/-- One step of call `i`, place by place. -/
theorem step_moves (h : r.Sound winner) {c : CancelCall} (hc : r.calls[i]? = some c) :
    ∃ winner', CallMoves i r.cell winner (c.step i r.cell).1 winner' ∧
      CallFits (c.step i r.cell).1 winner' i (c.step i r.cell).2 := by
  have hfit := h.calls_fit i c hc
  rcases c with ⟨reason, place⟩
  cases place with
  | entered =>
    simp only [CallFits] at hfit
    unfold CancelCall.step
    by_cases hfree : r.cell.writer = none ∧ r.cell.readers = 0
    · simp only [if_pos hfree]
      exact ⟨winner, .take h hfree.1 hfree.2 hfit.2, rfl, hfit.2⟩
    · simp only [if_neg hfree]
      exact ⟨winner, .stay h, hfit⟩
  | locked =>
    simp only [CallFits] at hfit
    unfold CancelCall.step
    by_cases hup : r.cell.flag = true
    · simp only [if_pos hup]
      exact ⟨winner, .stay h, hfit.1, hfit.2, h.flag_iff.mp hup⟩
    · have hopen : winner = none := by
        by_contra hwon
        exact hup (h.flag_iff.mpr hwon)
      simp only [if_neg hup]
      exact ⟨some i, .mark h hopen, hfit.1, rfl, h.reason_of_open hopen⟩
  | refused =>
    obtain ⟨hmine, hnot, hwon⟩ := hfit
    exact ⟨winner, .give h hmine, by simp [CancelCall.step], hnot, hwon, hwon.symm⟩
  | marked =>
    obtain ⟨hmine, rfl, hempty⟩ := hfit
    exact ⟨some i, .write h reason hempty, hmine, rfl, rfl⟩
  | stored =>
    obtain ⟨hmine, hwon, hreason⟩ := hfit
    exact ⟨winner, .give h hmine, by simp [CancelCall.step], hwon, hreason⟩
  | unlocked => exact ⟨winner, .stay h, hfit⟩
  | returned first => exact ⟨winner, .stay h, hfit⟩

theorem not_unwoken_wake (w : RaceWaiter) : ¬ w.wake.Unwoken := by
  cases w <;> simp [RaceWaiter.wake, RaceWaiter.Unwoken]

theorem wake_eq_finished {w : RaceWaiter} (h : w.wake = .finished) : w = .finished := by
  cases w <;> simp_all [RaceWaiter.wake]

/-- Only the last step of a call returns that it was the first. -/
theorem returned_first_of_step {i : Nat} {cell : TokenCell} {c : CancelCall}
    (h : (c.step i cell).2.place = .returned true) :
    c.place = .unlocked ∨ c.place = .returned true := by
  rcases c with ⟨reason, place⟩
  cases place with
  | entered =>
    simp only [CancelCall.step] at h
    split at h <;> simp at h
  | locked =>
    simp only [CancelCall.step] at h
    split at h <;> simp at h
  | unlocked => exact .inl rfl
  | returned first => exact .inr h
  | refused => simp [CancelCall.step] at h
  | marked => simp [CancelCall.step] at h
  | stored => simp [CancelCall.step] at h

theorem Sound.callAt (h : r.Sound winner) {c : CancelCall} (hc : r.calls[i]? = some c) :
    ∃ winner', (r.step (.callAt i)).Sound winner' ∧ (winner ≠ none → winner' = winner) := by
  obtain ⟨winner', hm, hfit⟩ := step_moves h hc
  have hlt : i < r.calls.length := (List.getElem?_eq_some_iff.mp hc).1
  refine ⟨winner', ?_, hm.winner_stays⟩
  rw [step_callAt hc]
  refine ⟨hm.flag_iff, hm.reason_of_open, ?_, ?_, ?_, hm.lock_is_exclusive, ?_, ?_, ?_, ?_⟩
  case refine_1 =>
    intro j hj
    simp only [List.length_set]
    by_cases hji : j = i
    · exact hji ▸ hlt
    · exact h.winner_is_there j ((hm.winner_is_mine j hji).mp hj)
  case refine_2 =>
    intro j hj
    simp only [List.length_set]
    by_cases hji : j = i
    · exact hji ▸ hlt
    · exact h.writer_is_there j ((hm.writer_is_mine j hji).mp hj)
  case refine_3 => exact hm.readers_stay.trans h.readers_counted
  case refine_4 =>
    intro j d hd
    by_cases hji : j = i
    · subst hji
      rw [List.getElem?_set_self hlt] at hd
      rw [← Option.some.inj hd]
      exact hfit
    · rw [List.getElem?_set_ne (Ne.symm hji)] at hd
      exact (h.calls_fit j d hd).of_other hm hji
  case refine_5 =>
    intro o ho
    refine (h.observers_fit o ho).mono ?_ hm.reason_stays
    intro hup
    have hwon := h.flag_iff.mp hup
    exact hm.flag_iff.mpr (hm.winner_stays hwon ▸ hwon)
  case refine_6 =>
    rintro ⟨j, d, hd, hplace⟩ w hw
    by_cases hlast : c.place = .unlocked
    · simp only [if_pos hlast, List.mem_map] at hw
      obtain ⟨v, -, rfl⟩ := hw
      exact not_unwoken_wake v
    · simp only [if_neg hlast] at hw
      refine h.none_unwoken ?_ w hw
      by_cases hji : j = i
      · subst hji
        rw [List.getElem?_set_self hlt] at hd
        rw [← Option.some.inj hd] at hplace
        exact ⟨j, c, hc, (returned_first_of_step hplace).resolve_left hlast⟩
      · rw [List.getElem?_set_ne (Ne.symm hji)] at hd
        exact ⟨j, d, hd, hplace⟩
  case refine_7 =>
    intro hw
    have hold : RaceWaiter.finished ∈ r.waiters := by
      by_cases hlast : c.place = .unlocked
      · simp only [if_pos hlast, List.mem_map] at hw
        obtain ⟨v, hv, hdone⟩ := hw
        exact wake_eq_finished hdone ▸ hv
      · simpa only [if_neg hlast] using hw
    have hwon := h.flag_iff.mp (h.finished_after_flag hold)
    exact hm.flag_iff.mpr (hm.winner_stays hwon ▸ hwon)

/-! ## One step of an observer, of a waiter, and newcomers -/

/-- What one step of an observer may do: it takes or gives back its share of the lock. -/
structure ObserverMoves (cell : TokenCell) (o : TokenObserver) (cell' : TokenCell)
    (o' : TokenObserver) : Prop where
  only_readers : cell' = { cell with readers := cell'.readers }
  counted : cell'.readers + o.holdsLock.toNat = cell.readers + o'.holdsLock.toNat
  lock_is_exclusive : cell.writer = none ∨ cell'.readers = 0
  fits : ObserverFits cell o'

/-- While no call has the lock, a flag that is up has its reason. -/
theorem Sound.reason_of_flag (h : r.Sound winner) (hfree : r.cell.writer = none)
    (hup : r.cell.flag = true) : r.cell.reason ≠ none := by
  obtain ⟨i, rfl⟩ := Option.ne_none_iff_exists'.mp (h.flag_iff.mp hup)
  have hlt := h.winner_is_there i rfl
  have hfit := h.calls_fit i _ (List.getElem?_eq_getElem hlt)
  unfold CallFits at hfit
  split at hfit <;> simp_all

theorem Sound.readers_pos (h : r.Sound winner) {o : TokenObserver} (ho : o ∈ r.observers)
    (hholds : o.holdsLock = true) : 0 < r.cell.readers := by
  rw [h.readers_counted]
  exact List.countP_pos_iff.mpr ⟨o, ho, hholds⟩

theorem Sound.writer_of_reader (h : r.Sound winner) {o : TokenObserver} (ho : o ∈ r.observers)
    (hholds : o.holdsLock = true) : r.cell.writer = none := by
  have hpos := h.readers_pos ho hholds
  exact h.lock_is_exclusive.resolve_right (by omega)

/-- One step of an observer, place by place. -/
theorem observer_moves (h : r.Sound winner) {o : TokenObserver} (ho : o ∈ r.observers) :
    ObserverMoves r.cell o (o.step r.cell).1 (o.step r.cell).2 := by
  have hfit := h.observers_fit o ho
  cases o with
  | starting => exact ⟨rfl, rfl, h.lock_is_exclusive, fun hseen => hseen⟩
  | looked seen =>
    unfold TokenObserver.step
    by_cases hfree : r.cell.writer = none
    · simp only [if_pos hfree]
      exact ⟨rfl, rfl, .inl hfree, hfit⟩
    · simp only [if_neg hfree]
      exact ⟨rfl, rfl, h.lock_is_exclusive, hfit⟩
  | reading seen =>
    refine ⟨rfl, rfl, h.lock_is_exclusive, fun hseen => ⟨rfl, ?_⟩⟩
    exact h.reason_of_flag (h.writer_of_reader ho rfl) (hfit hseen)
  | copied seen told =>
    have hpos := h.readers_pos ho rfl
    refine ⟨rfl, ?_, .inl (h.writer_of_reader ho rfl), hfit⟩
    exact Nat.sub_add_cancel hpos
  | done seen told => exact ⟨rfl, rfl, h.lock_is_exclusive, hfit⟩

theorem countP_holdsLock_set {l : List TokenObserver} {o : TokenObserver} (ho : l[i]? = some o)
    (o' : TokenObserver) :
    (l.set i o').countP TokenObserver.holdsLock + o.holdsLock.toNat =
      l.countP TokenObserver.holdsLock + o'.holdsLock.toNat := by
  obtain ⟨hlt, rfl⟩ := List.getElem?_eq_some_iff.mp ho
  have hpos : l[i].holdsLock = true → 0 < l.countP TokenObserver.holdsLock := by
    intro hholds
    exact List.countP_pos_iff.mpr ⟨l[i], List.getElem_mem hlt, hholds⟩
  rw [List.countP_set hlt]
  cases hold : l[i].holdsLock <;> cases hnew : o'.holdsLock <;> simp <;>
    have := hpos hold <;> omega

theorem Sound.observeAt (h : r.Sound winner) {o : TokenObserver} (ho : r.observers[i]? = some o) :
    (r.step (.observeAt i)).Sound winner := by
  have hm := observer_moves h (List.mem_of_getElem? ho)
  rw [step_observeAt ho, hm.only_readers]
  refine { h with readers_counted := ?_, lock_is_exclusive := hm.lock_is_exclusive, observers_fit := ?_ }
  · have hset := countP_holdsLock_set ho (o.step r.cell).2
    have hcounted := hm.counted
    have hcount := h.readers_counted
    show (o.step r.cell).1.readers = (r.observers.set i _).countP _
    omega
  · intro p hp
    rcases List.mem_or_eq_of_mem_set hp with hmem | rfl
    · exact h.observers_fit p hmem
    · exact hm.fits

/-- A call that has returned as the first put the flag up. -/
theorem Sound.winner_of_returned (h : r.Sound winner) (hr : r.CallAt i (.returned true)) :
    winner = some i := by
  obtain ⟨c, hc, hplace⟩ := hr
  have hfit := h.calls_fit i c hc
  simp only [CallFits, hplace] at hfit
  exact hfit.2.1

theorem RaceWaiter.unwoken_of_step {cell : TokenCell} {w : RaceWaiter}
    (h : (w.step cell).Unwoken) : w.Unwoken ∨ cell.flag = false := by
  cases w with
  | starting => simp [RaceWaiter.step, RaceWaiter.Unwoken] at h
  | registered woken => cases hup : cell.flag <;> simp_all [RaceWaiter.step, RaceWaiter.Unwoken]
  | checked woken => simp_all [RaceWaiter.step, RaceWaiter.Unwoken]
  | parked woken => cases woken <;> simp_all [RaceWaiter.step, RaceWaiter.Unwoken]
  | finished => simp [RaceWaiter.step, RaceWaiter.Unwoken] at h

theorem RaceWaiter.finished_of_step {cell : TokenCell} {w : RaceWaiter}
    (h : w.step cell = .finished) : w = .finished ∨ cell.flag = true := by
  cases w with
  | registered woken => cases hup : cell.flag <;> simp_all [RaceWaiter.step]
  | parked woken => cases woken <;> simp [RaceWaiter.step] at h
  | finished => exact .inl rfl
  | starting => simp [RaceWaiter.step] at h
  | checked woken => simp [RaceWaiter.step] at h

theorem Sound.waitAt (h : r.Sound winner) {w : RaceWaiter} (hw : r.waiters[i]? = some w) :
    (r.step (.waitAt i)).Sound winner := by
  have hold : w ∈ r.waiters := List.mem_of_getElem? hw
  rw [step_waitAt hw]
  refine { h with none_unwoken := ?_, finished_after_flag := ?_ }
  · rintro ⟨j, hj⟩ v hv
    have hnone := h.none_unwoken ⟨j, hj⟩
    rcases List.mem_or_eq_of_mem_set hv with hmem | rfl
    · exact hnone v hmem
    · intro hun
      have hwon : winner ≠ none := by simp [h.winner_of_returned hj]
      have hup := h.flag_iff.mpr hwon
      rcases RaceWaiter.unwoken_of_step hun with hbefore | hdown
      · exact hnone w hold hbefore
      · simp [hup] at hdown
  · intro hv
    rcases List.mem_or_eq_of_mem_set hv with hmem | hdone
    · exact h.finished_after_flag hmem
    · rcases RaceWaiter.finished_of_step hdone.symm with rfl | hup
      · exact h.finished_after_flag hold
      · exact hup

theorem Sound.call (h : r.Sound winner) (reason : String) :
    (r.step (.call reason)).Sound winner := by
  have hmore : ∀ {j}, j < r.calls.length → j < (r.calls ++ [{ reason : CancelCall }]).length := by
    intro j hj
    rw [List.length_append]
    exact Nat.lt_add_right 1 hj
  refine { h with
    winner_is_there := fun j hj => hmore (h.winner_is_there j hj)
    writer_is_there := fun j hj => hmore (h.writer_is_there j hj)
    calls_fit := ?_
    none_unwoken := ?_ }
  · intro j d hd
    rcases eq_or_of_getElem?_snoc hd with hold | ⟨rfl, rfl⟩
    · exact h.calls_fit j d hold
    · exact ⟨fun hj => Nat.lt_irrefl _ (h.writer_is_there _ hj),
        fun hj => Nat.lt_irrefl _ (h.winner_is_there _ hj)⟩
  · rintro ⟨j, d, hd, hplace⟩
    rcases eq_or_of_getElem?_snoc hd with hold | ⟨-, rfl⟩
    · exact h.none_unwoken ⟨j, d, hold, hplace⟩
    · contradiction

theorem Sound.observe (h : r.Sound winner) : (r.step .observe).Sound winner := by
  refine { h with readers_counted := ?_, observers_fit := ?_ }
  · simpa [step, TokenObserver.holdsLock] using h.readers_counted
  · intro o ho
    rcases List.mem_append.mp ho with hold | hnew
    · exact h.observers_fit o hold
    · rw [List.mem_singleton.mp hnew]
      trivial

theorem Sound.wait (h : r.Sound winner) : (r.step .wait).Sound winner := by
  refine { h with none_unwoken := ?_, finished_after_flag := ?_ }
  · intro hreturned w hw
    rcases List.mem_append.mp hw with hold | hnew
    · exact h.none_unwoken hreturned w hold
    · rw [List.mem_singleton.mp hnew]
      decide
  · intro hw
    rcases List.mem_append.mp hw with hold | hnew
    · exact h.finished_after_flag hold
    · simp at hnew

/-- Whatever happens next, the race stays sound, and a winner stays the winner. -/
theorem Sound.step (h : r.Sound winner) (a : RaceStep) :
    ∃ winner', (r.step a).Sound winner' ∧ (winner ≠ none → winner' = winner) := by
  cases a with
  | call reason => exact ⟨winner, h.call reason, fun _ => rfl⟩
  | callAt i =>
    cases hc : r.calls[i]? with
    | none => exact ⟨winner, by simpa only [TokenRace.step, hc] using h, fun _ => rfl⟩
    | some c => exact h.callAt hc
  | observe => exact ⟨winner, h.observe, fun _ => rfl⟩
  | observeAt i =>
    cases ho : r.observers[i]? with
    | none => exact ⟨winner, by simpa only [TokenRace.step, ho] using h, fun _ => rfl⟩
    | some o => exact ⟨winner, h.observeAt ho, fun _ => rfl⟩
  | wait => exact ⟨winner, h.wait, fun _ => rfl⟩
  | waitAt i =>
    cases hw : r.waiters[i]? with
    | none => exact ⟨winner, by simpa only [TokenRace.step, hw] using h, fun _ => rfl⟩
    | some w => exact ⟨winner, h.waitAt hw, fun _ => rfl⟩

theorem Sound.play (h : r.Sound winner) (steps : List RaceStep) :
    ∃ winner', (r.play steps).Sound winner' ∧ (winner ≠ none → winner' = winner) := by
  induction steps generalizing r winner with
  | nil => exact ⟨winner, h, fun _ => rfl⟩
  | cons a rest ih =>
    obtain ⟨next, hnext, hstays⟩ := h.step a
    obtain ⟨last, hlast, hkeeps⟩ := ih hnext
    refine ⟨last, hlast, ?_⟩
    intro hwon
    have hsame := hstays hwon
    rw [← hsame] at hwon ⊢
    exact hkeeps hwon

end TokenRace

end Provisioning
