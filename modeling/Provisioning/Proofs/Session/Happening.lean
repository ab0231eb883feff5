-- The small things that happen to a session, one at a time: time passes,
-- someone acts on it, its loop moves. Every run is a row of them, so what
-- holds after every row holds whatever is done and whenever the loop moves.
import Mathlib.Data.List.Induction
import Provisioning.Session.Steps

namespace Provisioning

/-- One thing that happens to a session. A move is not tied to the clock here:
it may come early or late, as the thread that runs the loop is free or not. -/
inductive Happening
  | clock (ms : Nat)
  | push (entry : FetchResult)
  | stop (reason : String)
  | drop
  /-- A wait takes the loop out of hand, whether it is given up later or not. -/
  | release
  /-- The loop makes its next move. -/
  | move

namespace Session

/-- What comes of one thing. A session that has been given up cannot be stopped
or waited for. -/
def happen (s : Session) : Happening → Session
  | .clock ms => s.setClock (s.now + ms)
  | .push entry => { s with source := s.source.push entry }
  | .stop reason => if s.isDropped then s else s.stop reason
  | .drop => if s.isDropped then s else s.drop
  | .release => if s.isDropped then s else s.release
  | .move => s.move

/-- What comes of one thing after the other. -/
def play (s : Session) (hs : List Happening) : Session := hs.foldl happen s

@[simp] theorem play_nil (s : Session) : s.play [] = s := rfl

@[simp] theorem play_cons (s : Session) (h : Happening) (hs : List Happening) :
    s.play (h :: hs) = (s.happen h).play hs := rfl

theorem play_append (s : Session) (hs more : List Happening) :
    s.play (hs ++ more) = (s.play hs).play more := by
  simp [play, List.foldl_append]

theorem play_snoc (s : Session) (hs : List Happening) (h : Happening) :
    s.play (hs ++ [h]) = (s.play hs).happen h := by
  simp [play, List.foldl_append]

/-! ## What stays the same whatever happens -/

/-- The plan, the clock and the hold on the session: no move touches them. -/
def setting (s : Session) : SessionPlan × Nat × Bool := (s.plan, s.now, s.isDropped)

@[simp] theorem say_setting (s : Session) (origin : LogOrigin) (line : LogLine) :
    (s.say origin line).setting = s.setting := rfl

@[simp] theorem later_setting (s : Session) (ms : Nat) : (s.later ms).setting = s.setting := rfl

@[simp] theorem deliver_setting (s : Session) (e : Event) :
    (s.deliver e).setting = s.setting := by
  unfold deliver; split <;> rfl

@[simp] theorem moveTo_setting (s : Session) (state : SessionState) :
    (s.moveTo state).1.setting = s.setting := by
  unfold moveTo; split <;> rfl

@[simp] theorem abort_setting (s : Session) : s.abort.setting = s.setting := by
  unfold abort; split <;> rfl

@[simp] theorem stop_setting (s : Session) (reason : String) :
    (s.stop reason).setting = s.setting := by
  simp only [stop]
  split
  · simp only [deliver_setting, say_setting, moveTo_setting, abort_setting]; rfl
  · simp only [moveTo_setting, abort_setting]; rfl

@[simp] theorem conclude_setting (s : Session) : s.conclude.setting = s.setting := by
  have hmove := s.moveTo_setting .cancelled
  simp only [conclude]
  split
  · split
    · exact (deliver_setting _ _).trans hmove
    · exact hmove
  · exact hmove

@[simp] theorem beginFetch_setting (s : Session) : s.beginFetch.setting = s.setting := by
  simp only [beginFetch]; split <;> rfl

@[simp] theorem enter_setting (s : Session) (next : LoopNext) :
    (s.enter next).setting = s.setting := by
  unfold enter
  split
  · rfl
  · split <;> simp
  · split
    · simp
    · rfl

@[simp] theorem perform_setting (s : Session) (todo : List Output) (next : LoopNext) :
    (s.perform todo next).setting = s.setting := by
  induction todo generalizing s with
  | nil => simp [perform]
  | cons o todo ih =>
    cases o with
    | say line => simp [perform, ih]
    | emit event =>
      simp only [perform]
      split
      · simp [ih]
      · rfl

@[simp] theorem takeRecord_setting (s : Session) (a : Application) :
    (s.takeRecord a).setting = s.setting := by
  simp only [takeRecord]
  split
  · simp
  · rw [perform_setting]
    split <;> rfl

@[simp] theorem takeResult_setting (s : Session) (result : FetchResult) :
    (s.takeResult result).setting = s.setting := by
  unfold takeResult
  split
  · simp
  · split <;> simp

@[simp] theorem finishFetch_setting (s : Session) : s.finishFetch.setting = s.setting := by
  simp only [finishFetch]
  split
  · rfl
  · rw [takeResult_setting, stop_setting]; rfl
  · rw [takeResult_setting]; rfl

@[simp] theorem begin_setting (s : Session) : s.begin.setting = s.setting := by
  unfold begin
  split <;> simp

theorem move_setting (s : Session) : s.move.setting = s.setting := by
  unfold move
  split
  · simp
  · split
    · simp
    · rw [finishFetch_setting, later_setting]
  · rw [perform_setting, deliver_setting, later_setting]
  · split
    · simp
    · rw [enter_setting, later_setting]
  · rfl

theorem move_plan (s : Session) : s.move.plan = s.plan := congrArg Prod.fst s.move_setting

theorem move_now (s : Session) : s.move.now = s.now :=
  congrArg (fun setting => setting.2.1) s.move_setting

theorem stop_plan (s : Session) (reason : String) : (s.stop reason).plan = s.plan :=
  congrArg Prod.fst (s.stop_setting reason)

@[simp] theorem happen_plan (s : Session) (h : Happening) : (s.happen h).plan = s.plan := by
  cases h with
  | clock ms => rfl
  | push entry => rfl
  | stop reason =>
    simp only [happen]
    split
    · rfl
    · exact s.stop_plan reason
  | drop =>
    simp only [happen]
    split
    · rfl
    · exact s.stop_plan _
  | release => simp only [happen]; split <;> rfl
  | move => exact s.move_plan

@[simp] theorem play_plan (s : Session) (hs : List Happening) : (s.play hs).plan = s.plan := by
  induction hs generalizing s with
  | nil => rfl
  | cons h hs ih => rw [play_cons, ih, happen_plan]

theorem play_config (s : Session) (hs : List Happening) : (s.play hs).config = s.config := by
  simp [config]

theorem play_appId (s : Session) (hs : List Happening) : (s.play hs).appId = s.appId := by
  simp [appId]

/-! ## Running -/

theorem runWhile_of_due {goes : Session → Bool} {limit : Nat} {s : Session} (due : Nat)
    (hdue : s.due? = some due) (hgoes : due < limit ∧ goes s = true) :
    s.runWhile goes limit = s.move.runWhile goes limit := by
  rw [runWhile]
  split
  · rename_i hnone
    rw [hdue] at hnone
    cases hnone
  · rename_i due' hdue'
    rw [hdue] at hdue'
    cases hdue'
    rw [if_pos hgoes]

theorem runWhile_of_late {goes : Session → Bool} {limit : Nat} {s : Session}
    (hlate : ∀ due, s.due? = some due → ¬(due < limit ∧ goes s = true)) :
    s.runWhile goes limit = s := by
  rw [runWhile]
  split
  · rfl
  · rename_i due hdue
    rw [if_neg (hlate due hdue)]

/-! ## Every run is a row of happenings -/

theorem play_moves_now (s : Session) (n : Nat) :
    (s.play (List.replicate n .move)).now = s.now := by
  induction n generalizing s with
  | zero => rfl
  | succ n ih => rw [List.replicate_succ, play_cons, ih]; exact s.move_now

theorem exists_play_runWhile (goes : Session → Bool) (limit : Nat) (s : Session) :
    ∃ n, s.runWhile goes limit = s.play (List.replicate n .move) := by
  fun_induction runWhile goes limit s with
  | case1 s hdue => exact ⟨0, rfl⟩
  | case2 s due hdue hgoes ih =>
    obtain ⟨n, hn⟩ := ih
    refine ⟨n + 1, ?_⟩
    rw [hn, List.replicate_succ, play_cons]
    rfl
  | case3 s due hdue hgoes => exact ⟨0, rfl⟩

theorem exists_play_settle (s : Session) : ∃ hs, s.settle = s.play hs := by
  obtain ⟨n, hn⟩ := exists_play_runWhile (fun _ => true) (s.now + 1) s
  exact ⟨_, hn⟩

/-- A wait takes the loop out of hand, lets it move, and sets the clock. -/
theorem exists_play_wait (s : Session) (limitMs : Nat) (hs : s.isDropped = false) :
    ∃ hs, (s.wait limitMs).1 = s.play hs := by
  unfold wait
  by_cases hheld : s.holdsLoop = true
  · simp only [hheld, if_true]
    obtain ⟨n, hn⟩ := exists_play_runWhile (fun s => !s.phase.isEnded) (s.now + limitMs) s.release
    have hrelease : s.happen .release = s.release := by simp [happen, hs]
    have hnow : (s.release.play (List.replicate n .move)).now = s.now := play_moves_now _ n
    rw [hn]
    split
    · refine ⟨.release :: List.replicate n .move ++ [.clock limitMs], ?_⟩
      rw [play_snoc, play_cons, hrelease]
      simp only [happen]
      rw [hnow]
    · generalize hran : s.release.play (List.replicate n .move) = ran
      refine ⟨.release :: List.replicate n .move ++ [.clock (max ran.now ran.since - ran.now)], ?_⟩
      rw [play_snoc, play_cons, hrelease, hran]
      simp only [happen, catchUp]
      congr 1
      omega
  · exact ⟨[], by simp [hheld]⟩

theorem exists_play_act (s : Session) (step : SessionStep) : ∃ hs, (s.act step).1 = s.play hs := by
  cases step with
  | settle => exact ⟨[], rfl⟩
  | advance ms => exact ⟨[.clock ms], rfl⟩
  | push entry => exact ⟨[.push entry], rfl⟩
  | stop reason => exact ⟨[.stop reason], rfl⟩
  | drop => exact ⟨[.drop], rfl⟩
  | wait limitMs =>
    by_cases hd : s.isDropped = true
    · exact ⟨[], by simp [act, hd]⟩
    · obtain ⟨hs, he⟩ := s.exists_play_wait limitMs (by simpa using hd)
      exact ⟨hs, by simp [act, hd, he]⟩
  | pollWait =>
    by_cases hd : s.isDropped = true
    · exact ⟨[], by simp [act, hd]⟩
    · exact ⟨[.release], by simp [act, hd, happen, pollWait]⟩
  | pollWaitStop reason =>
    by_cases hd : s.isDropped = true
    · exact ⟨[], by simp [act, hd]⟩
    · exact ⟨[.release, .stop reason], by simp [act, hd, happen, pollWait, release]⟩

theorem exists_play_step (s : Session) (step : SessionStep) :
    ∃ hs, (s.step step).1 = s.play hs := by
  obtain ⟨hs, he⟩ := s.exists_play_act step
  obtain ⟨hs', he'⟩ := (s.play hs).exists_play_settle
  refine ⟨hs ++ hs', ?_⟩
  rw [play_append, ← he', ← he]
  rfl

/-- Whatever is done to a session, step by step and with all that it makes due, is
a row of happenings. -/
theorem exists_play_run (s : Session) (steps : List SessionStep) :
    ∃ hs, s.run steps = s.play hs := by
  induction steps generalizing s with
  | nil => exact ⟨[], rfl⟩
  | cons step steps ih =>
    obtain ⟨hs, he⟩ := s.exists_play_step step
    obtain ⟨hs', he'⟩ := ih (s.step step).1
    refine ⟨hs ++ hs', ?_⟩
    rw [play_append, ← he, ← he']
    rfl

end Session

end Provisioning
