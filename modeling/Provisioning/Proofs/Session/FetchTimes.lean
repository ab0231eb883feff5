-- Fetches by the clock: how many have begun and ended by now, and which of them a stop
-- leaves out.
import Provisioning.Proofs.Session.Schedule

namespace Provisioning

/-- Does a step leave the session to itself? -/
def SessionStep.isPassive : SessionStep → Bool
  | settle | advance _ | wait _ | pollWait => true
  | _ => false

/-- Does a step stop the session? -/
def SessionStep.isStop : SessionStep → Bool
  | stop _ | drop | pollWaitStop _ => true
  | _ => false

namespace Session

/-! ## Up to now -/

/-- The loop has made the moves that are due by now, and no others. -/
structure Settled (s : Session) : Prop where
  since_le : s.since ≤ s.now
  later : ∀ due, s.due? = some due → s.now < due

theorem runWhile_since_le {goes : Session → Bool} {limit bound : Nat} {s : Session}
    (hs : s.since ≤ bound) (hlimit : limit ≤ bound + 1) :
    (s.runWhile goes limit).since ≤ bound := by
  fun_induction runWhile goes limit s with
  | case1 s hdue => exact hs
  | case2 s due hdue hgoes ih =>
    apply ih
    rw [move_since hdue]
    omega
  | case3 s due hdue hgoes => exact hs

theorem runWhile_not_due (goes : Session → Bool) (limit : Nat) (s : Session) {due : Nat}
    (hdue : (s.runWhile goes limit).due? = some due) :
    ¬(due < limit ∧ goes (s.runWhile goes limit) = true) := by
  fun_induction runWhile goes limit s with
  | case1 s hnone =>
    rw [hnone] at hdue
    cases hdue
  | case2 s due' hdue' hgoes ih => exact ih hdue
  | case3 s due' hdue' hlate =>
    rw [hdue'] at hdue
    cases hdue
    exact hlate

theorem runWhile_now (goes : Session → Bool) (limit : Nat) (s : Session) :
    (s.runWhile goes limit).now = s.now := by
  obtain ⟨n, hn⟩ := exists_play_runWhile goes limit s
  rw [hn]
  exact play_moves_now s n

theorem settle_settled {s : Session} (h : s.since ≤ s.now) : s.settle.Settled := by
  have hnow : s.settle.now = s.now := runWhile_now _ _ s
  refine ⟨?_, ?_⟩
  · rw [hnow]
    exact runWhile_since_le h (Nat.le_refl _)
  · intro due hdue
    have hlate := runWhile_not_due _ _ s hdue
    rw [hnow]
    simp only [and_true] at hlate
    omega

end Session

namespace Timetable

section
variable {T : Timetable} {s : Session}

/-! ## Runs -/

theorem Keeps.play_moves (h : T.Keeps s) (n : Nat) : T.Keeps (s.play (List.replicate n .move)) := by
  induction n generalizing s with
  | zero => exact h
  | succ n ih =>
    rw [List.replicate_succ, Session.play_cons]
    exact ih (move_keeps h)

theorem Keeps.runWhile (h : T.Keeps s) (goes : Session → Bool) (limit : Nat) :
    T.Keeps (s.runWhile goes limit) := by
  obtain ⟨n, hn⟩ := Session.exists_play_runWhile goes limit s
  rw [hn]
  exact h.play_moves n

theorem Keeps.setClock (h : T.Keeps s) (now : Nat) : T.Keeps (s.setClock now) where
  sound := { h.sound with }
  one := ⟨h.one.completed_le, h.one.calls_le, h.one.calls_eq⟩
  fits := h.fits.of_same rfl (.inl rfl)
  holds := h.holds
  past := h.past

theorem Keeps.release (h : T.Keeps s) : T.Keeps s.release where
  sound := { h.sound with }
  one := ⟨h.one.completed_le, h.one.calls_le, h.one.calls_eq⟩
  fits := h.fits.of_same rfl (.inl rfl)
  holds := h.holds
  past := h.past

theorem Keeps.wait (h : T.Keeps s) (hnow : s.since ≤ s.now) (limitMs : Nat) :
    T.Keeps (s.wait limitMs).1 ∧ (s.wait limitMs).1.since ≤ (s.wait limitMs).1.now := by
  unfold Session.wait
  split
  · have hran := h.release.runWhile (fun s => !s.phase.isEnded) (s.now + limitMs)
    have hsince : (s.release.runWhile (fun s => !s.phase.isEnded) (s.now + limitMs)).since ≤
        s.now + limitMs :=
      Session.runWhile_since_le (show s.since ≤ s.now + limitMs by omega) (by omega)
    dsimp only
    split
    · exact ⟨hran.setClock _, hsince⟩
    · exact ⟨hran.setClock _, Nat.le_max_right _ _⟩
  · exact ⟨h, hnow⟩

theorem Keeps.act (h : T.Keeps s) (hnow : s.since ≤ s.now) {step : SessionStep}
    (hpassive : step.isPassive = true) :
    T.Keeps (s.act step).1 ∧ (s.act step).1.since ≤ (s.act step).1.now := by
  cases step with
  | settle => exact ⟨h, hnow⟩
  | advance ms => exact ⟨h.setClock _, Nat.le_trans hnow (Nat.le_add_right _ _)⟩
  | wait limitMs =>
    simp only [Session.act]
    split
    · exact ⟨h, hnow⟩
    · exact h.wait hnow limitMs
  | pollWait =>
    simp only [Session.act]
    split
    · exact ⟨h, hnow⟩
    · exact ⟨h.release, hnow⟩
  | stop reason => cases hpassive
  | drop => cases hpassive
  | push entry => cases hpassive
  | pollWaitStop reason => cases hpassive

theorem Keeps.step (h : T.Keeps s) (hnow : s.since ≤ s.now) {step : SessionStep}
    (hpassive : step.isPassive = true) : T.Keeps (s.step step).1 ∧ (s.step step).1.Settled := by
  obtain ⟨hact, hsince⟩ := h.act hnow hpassive
  exact ⟨hact.runWhile _ _, Session.settle_settled hsince⟩

theorem Keeps.run (h : T.Keeps s) (hset : s.Settled) {steps : List SessionStep}
    (hpassive : ∀ step ∈ steps, step.isPassive = true) :
    T.Keeps (s.run steps) ∧ (s.run steps).Settled := by
  induction steps generalizing s with
  | nil => exact ⟨h, hset⟩
  | cons step steps ih =>
    obtain ⟨hstep, hstep'⟩ := h.step hset.since_le (hpassive step List.mem_cons_self)
    exact ih hstep hstep' fun step' hmem => hpassive step' (List.mem_cons_of_mem _ hmem)

/-! ## What has begun and ended by now -/

/-- Where a session is when everything due has been done: in the middle of a fetch, before
the next one, or after the terminal record. -/
inductive Stands (T : Timetable) (s : Session) : Prop
  | fetching (state : s.state = .polling) (reaches : T.Reaches s.source.completed)
      (calls : s.source.calls = s.source.completed + 1)
      (begun : T.start s.source.completed ≤ s.now)
      (ahead : s.now < T.start s.source.completed + T.latencyMs)
  | between (state : s.state = .polling) (reaches : T.Reaches s.source.completed)
      (calls : s.source.calls = s.source.completed)
      (ahead : s.now < T.start s.source.completed)
  | ended (state : s.state = .terminal) (n : Nat) (completed : s.source.completed = n + 1)
      (calls : s.source.calls = n + 1) (reaches : T.Reaches n) (ends : T.ends n = true)

theorem Stands.reaches (h : T.Stands s) {k : Nat} (hk : k < s.source.calls) : T.Reaches k := by
  cases h with
  | fetching state reaches calls begun ahead => exact reaches.mono (by omega)
  | between state reaches calls ahead => exact reaches.mono (by omega)
  | ended state n completed calls reaches ends => exact reaches.mono (by omega)

section
variable (h : T.Stands s) (hpast : ∀ k < s.source.completed, T.start k + T.latencyMs ≤ s.now)
include h hpast

end

end

/-! ## The start -/

end Timetable

namespace Session

/-! ## The law -/

end Session

end Provisioning
