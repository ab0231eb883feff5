-- When the fetches of a session should begin. A fetch takes its time, so does each
-- event of its result, and then the loop rests before the next fetch. The first
-- terminal record ends that.
import Provisioning.Proofs.Session.Delivery

namespace Provisioning

/-! ## The script -/

namespace Playback

/-- The result of each fetch, counted from 0: the last entry of a script stays. -/
def entryAt (script : List FetchResult) (appId : String) (n : Nat) : FetchResult :=
  (script[min n (script.length - 1)]?).getD (.error (exhausted appId))

theorem answer_eq_entryAt (p : Playback) (appId : String) :
    (p.answer appId).2 = entryAt p.script appId 0 := by
  unfold answer entryAt
  match p.script with
  | [] => rfl
  | [_] => rfl
  | _ :: _ :: _ => simp

/-- An answer takes one entry off the script, unless it is the last. -/
theorem entryAt_of_answer (p : Playback) (appId : String) (n : Nat) :
    entryAt (p.answer appId).1.script appId n = entryAt p.script appId (n + 1) := by
  unfold answer entryAt
  match p.script with
  | [] => rfl
  | [_] => simp
  | _ :: entry :: rest =>
    have hmin : min (n + 1) (rest.length + 1) = min n rest.length + 1 := by omega
    simp [hmin]

end Playback

/-! ## Timetables -/

/-- How long things take, how many events each result brings, and which are terminal
records. -/
structure Timetable where
  emitMs : Nat
  latencyMs : Nat
  restMs : Nat
  told : Nat → Nat
  ends : Nat → Bool

namespace Timetable

variable (T : Timetable)

/-- When a fetch begins: the first one after the event of the start, any other one after
the events of the result before it, and a rest. -/
def start : Nat → Nat
  | 0 => T.emitMs
  | k + 1 => start k + T.latencyMs + T.emitMs * T.told k + T.restMs

/-- No result before this one ends polling. -/
def Reaches (k : Nat) : Prop := ∀ i < k, T.ends i = false

variable {T}

theorem Reaches.mono {i j : Nat} (h : T.Reaches j) (hij : i ≤ j) : T.Reaches i := by
  intro k hk
  exact h k (by omega)

theorem Reaches.succ {k : Nat} (h : T.Reaches k) (hk : T.ends k = false) : T.Reaches (k + 1) := by
  intro i hi
  rcases Nat.lt_succ_iff_lt_or_eq.mp hi with hlt | rfl
  · exact h i hlt
  · exact hk

theorem start_add_latency_le {i j : Nat} (h : i < j) : T.start i + T.latencyMs ≤ T.start j := by
  induction j with
  | zero => omega
  | succ j ih =>
    simp only [start]
    rcases Nat.lt_succ_iff_lt_or_eq.mp h with hlt | rfl
    · have := ih hlt
      omega
    · omega

theorem start_mono {i j : Nat} (h : i ≤ j) : T.start i ≤ T.start j := by
  rcases Nat.lt_or_eq_of_le h with hlt | rfl
  · have := start_add_latency_le (T := T) hlt
    omega
  · exact Nat.le_refl _

end Timetable

end Provisioning
