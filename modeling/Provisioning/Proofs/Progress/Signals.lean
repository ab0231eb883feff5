-- What a session makes known, signal by signal: snapshots numbered one after another,
-- then the end, and nothing after it.
import Provisioning.Proofs.Session.Progress

namespace Provisioning

/-! ## Signals in order -/

/-- One thing that is made known to readers. -/
inductive Signal
  | published (p : Snapshot)
  /-- There will be nothing more. -/
  | closed

def Signal.snapshot? : Signal → Option Snapshot
  | published p => some p
  | closed => none

namespace ProgressChannel

/-- The channel after a signal. It keeps the newest snapshot only. -/
def after (c : ProgressChannel) : Signal → ProgressChannel
  | .published p => { c with latest := p }
  | .closed => { c with isOpen := false }

def afterAll (c : ProgressChannel) (signals : List Signal) : ProgressChannel :=
  signals.foldl after c

theorem afterAll_append (c : ProgressChannel) (xs ys : List Signal) :
    c.afterAll (xs ++ ys) = (c.afterAll xs).afterAll ys :=
  List.foldl_append

/-- A signal that may come next: the channel is open, and a snapshot has the next number. -/
structure Expects (c : ProgressChannel) (x : Signal) : Prop where
  isOpen : c.isOpen = true
  sequence : ∀ p, x = .published p → p.sequence = c.latest.sequence + 1

/-- Signals that may come next, one after another. -/
def InOrder (c : ProgressChannel) : List Signal → Prop
  | [] => True
  | x :: rest => c.Expects x ∧ (c.after x).InOrder rest

theorem inOrder_append {c : ProgressChannel} {xs ys : List Signal} :
    c.InOrder (xs ++ ys) ↔ c.InOrder xs ∧ (c.afterAll xs).InOrder ys := by
  induction xs generalizing c with
  | nil => simp [InOrder, afterAll]
  | cons x rest ih =>
    simp only [List.cons_append, InOrder, ih, and_assoc]
    rfl

/-- Nothing follows the end. -/
theorem InOrder.nil_of_closed {c : ProgressChannel} (hclosed : c.isOpen = false)
    {xs : List Signal} (h : c.InOrder xs) : xs = [] := by
  cases xs with
  | nil => rfl
  | cons x rest =>
    have hopen := h.1.isOpen
    rw [hclosed] at hopen
    contradiction

/-- The newest snapshot is the last one that was published, and its number says how many
there have been. -/
theorem InOrder.latest {c : ProgressChannel} {xs : List Signal} (h : c.InOrder xs) :
    (c.afterAll xs).latest = (xs.filterMap Signal.snapshot?).getLast?.getD c.latest ∧
      (c.afterAll xs).latest.sequence =
        c.latest.sequence + (xs.filterMap Signal.snapshot?).length := by
  induction xs generalizing c with
  | nil => exact ⟨rfl, rfl⟩
  | cons x rest ih =>
    obtain ⟨hx, hrest⟩ := h
    obtain ⟨hlatest, hsequence⟩ := ih hrest
    have hstep : c.afterAll (x :: rest) = (c.after x).afterAll rest := rfl
    rw [hstep]
    cases x with
    | published p =>
      have hnext := hx.sequence p rfl
      refine ⟨hlatest.trans ?_, hsequence.trans ?_⟩
      · simp [Signal.snapshot?, after, List.getLast?_cons]
      · simp only [List.filterMap_cons, Signal.snapshot?, List.length_cons, after, hnext]
        omega
    | closed => exact ⟨hlatest, hsequence⟩

end ProgressChannel

/-! ## The signals of a session -/

namespace Session

/-- What comes to readers of one thing that happens: a snapshot if there is a new one,
then the end if the loop has ended with it. -/
def signalsOf (s : Session) (h : Happening) : List Signal :=
  (if (s.happen h).latest.sequence = s.latest.sequence then []
    else [.published (s.happen h).latest]) ++
  if (s.happen h).phase.isEnded && !s.phase.isEnded then [.closed] else []

/-- All that comes to readers, in order. -/
def signals (s : Session) : List Happening → List Signal
  | [] => []
  | h :: hs => s.signalsOf h ++ (s.happen h).signals hs

theorem signals_append (s : Session) (hs more : List Happening) :
    s.signals (hs ++ more) = s.signals hs ++ (s.play hs).signals more := by
  induction hs generalizing s with
  | nil => rfl
  | cons h hs ih => simp [signals, ih]

theorem stop_isEnded {s : Session} (hended : s.phase.isEnded = true) (reason : String) :
    (s.stop reason).phase.isEnded = true := by
  rcases (s.stop_stopped reason).phase with hsame | haborted
  · rw [hsame, hended]
  · rw [haborted]
    rfl

theorem move_of_ended {s : Session} (hended : s.phase.isEnded = true) : s.move = s := by
  unfold LoopPhase.isEnded at hended
  unfold move
  split at hended
  · rename_i hphase
    simp only [hphase]
  · contradiction

/-- A loop that has ended does not begin again. -/
theorem happen_isEnded {s : Session} (hended : s.phase.isEnded = true) (h : Happening) :
    (s.happen h).phase.isEnded = true := by
  cases h with
  | clock ms => exact hended
  | push entry => exact hended
  | stop reason =>
    simp only [happen]
    split
    · exact hended
    · exact stop_isEnded hended reason
  | drop =>
    simp only [happen]
    split
    · exact hended
    · exact stop_isEnded hended _
  | release =>
    simp only [happen]
    split <;> exact hended
  | move => rwa [happen, move_of_ended hended]

/-- Only a loop that has not ended publishes, and what it publishes has the next number. -/
theorem published_of_sequence_ne {s : Session} (hs : s.Sound) {h : Happening}
    (hne : (s.happen h).latest.sequence ≠ s.latest.sequence) :
    s.phase.isEnded = false ∧ (s.happen h).latest.sequence = s.latest.sequence + 1 := by
  rcases happen_latest hs h with ⟨a, time, ho, hlatest⟩ | ⟨-, hsame⟩
  · refine ⟨?_, by rw [hlatest]; rfl⟩
    have hmove := move_of_occurrence ho (by simp)
    subst hmove
    by_contra hended
    apply hne
    rw [happen, move_of_ended (by simpa using hended)]
  · rw [hsame] at hne
    contradiction

/-- Without a new number there is nothing new. -/
theorem latest_of_sequence_eq {s : Session} (hs : s.Sound) {h : Happening}
    (heq : (s.happen h).latest.sequence = s.latest.sequence) :
    (s.happen h).latest = s.latest := by
  rcases happen_latest hs h with ⟨a, time, -, hlatest⟩ | ⟨-, hsame⟩
  · rw [hlatest] at heq
    simp [Snapshot.next] at heq
  · exact hsame

theorem happen_signals {s : Session} (hs : s.Sound) (h : Happening) :
    s.progress.InOrder (s.signalsOf h) ∧
      s.progress.afterAll (s.signalsOf h) = (s.happen h).progress := by
  have hopen : s.progress.isOpen = true ↔ s.phase.isEnded = false := by simp [progress]
  unfold signalsOf
  by_cases hnew : (s.happen h).latest.sequence = s.latest.sequence
  · have hsame := latest_of_sequence_eq hs hnew
    rw [if_pos hnew, List.nil_append]
    cases hended : s.phase.isEnded with
    | true =>
      simp [ProgressChannel.InOrder, ProgressChannel.afterAll, progress, hsame, hended,
        happen_isEnded hended h]
    | false =>
      cases hends : (s.happen h).phase.isEnded with
      | true =>
        refine ⟨⟨⟨hopen.mpr hended, by simp⟩, trivial⟩, ?_⟩
        simp [ProgressChannel.afterAll, ProgressChannel.after, progress, hsame, hends]
      | false =>
        simp [ProgressChannel.InOrder, ProgressChannel.afterAll, progress, hsame, hended, hends]
  · obtain ⟨hended, hnext⟩ := published_of_sequence_ne hs hnew
    have hexpects : s.progress.Expects (.published (s.happen h).latest) := by
      refine ⟨hopen.mpr hended, ?_⟩
      rintro p hp
      rw [← Signal.published.inj hp]
      exact hnext
    rw [if_neg hnew]
    cases hends : (s.happen h).phase.isEnded with
    | true =>
      simp only [hended, Bool.not_false, Bool.and_self, if_true]
      refine ⟨⟨hexpects, ⟨hopen.mpr hended, by simp⟩, trivial⟩, ?_⟩
      simp [ProgressChannel.afterAll, ProgressChannel.after, progress, hends]
    | false =>
      simp only [hended, Bool.not_false, Bool.and_true, Bool.false_eq_true, if_false]
      refine ⟨⟨hexpects, trivial⟩, ?_⟩
      simp [ProgressChannel.afterAll, ProgressChannel.after, progress, hended, hends]

/-- The signals come in order, and they bring the channel where the session is. -/
theorem play_signals {s : Session} (hs : s.Sound) (hs' : List Happening) :
    s.progress.InOrder (s.signals hs') ∧
      s.progress.afterAll (s.signals hs') = (s.play hs').progress := by
  induction hs' generalizing s with
  | nil => exact ⟨trivial, rfl⟩
  | cons h rest ih =>
    obtain ⟨horder, hafter⟩ := happen_signals hs h
    obtain ⟨horder', hafter'⟩ := ih (happen_spec hs h).1
    rw [signals, ProgressChannel.inOrder_append, ProgressChannel.afterAll_append, hafter]
    exact ⟨⟨horder, horder'⟩, hafter'⟩

end Session

end Provisioning
