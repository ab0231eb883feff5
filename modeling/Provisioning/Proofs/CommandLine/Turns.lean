-- What a watch prints when its loop and its printing task take turns. If the task looks
-- between any two ends of fetches, it prints each record once, in order, with its number.
import Provisioning.CommandLine.Watch
import Provisioning.Proofs.Progress.Following

namespace Provisioning

/-! ## Blocks -/

namespace Config

/-- What is printed of a record: its state and its number, then each stage with the mark
of its class at the level of that state. -/
def recordBlock (c : Config) (number : Nat) (a : Application) : List String :=
  ("-- state: " ++ (a.state c).getD "unknown" ++ " (fetch #" ++ toString number ++ ")") ::
    c.stages.stages.map fun stage =>
      (Classification.ofOrdinal stage.ordinal ((a.state c).bind c.stateLevel)).mark ++ " " ++
        stage.name

/-- The blocks of records, numbered from 1. -/
def recordBlocks (c : Config) (records : List Application) : List String :=
  (records.zipIdx 1).flatMap fun (a, number) => c.recordBlock number a

theorem recordBlocks_snoc (c : Config) (records : List Application) (a : Application) :
    c.recordBlocks (records ++ [a]) = c.recordBlocks records ++ c.recordBlock (records.length + 1) a := by
  simp only [recordBlocks, List.zipIdx_append, List.flatMap_append, List.zipIdx_singleton,
    List.flatMap_singleton, Nat.add_comm 1]

end Config

/-- A snapshot is printed as the block of the record that it shows. -/
theorem Snapshot.Shows.lines_eq {c : Config} {records : List Application} {a : Application}
    {p : Snapshot} (h : p.Shows c (records ++ [a])) :
    p.lines c.stages = c.recordBlock (records.length + 1) a := by
  have hstate : p.state = a.state c := by simp [h.state]
  have hsequence : p.sequence = records.length + 1 := by simp [h.sequence]
  unfold Snapshot.lines Config.recordBlock
  rw [h.level, hstate, hsequence]
  simp [StageTable.progress]

/-! ## Turns -/

/-- What comes next in a watch: its loop moves, or its printing task looks. -/
inductive WatchTurn
  | move
  | look
deriving DecidableEq

/-- Moves and looks in turn. -/
def WatchTurn.alternating (n : Nat) : List WatchTurn := (List.replicate n [move, look]).flatten

theorem WatchTurn.alternating_succ (n : Nat) :
    alternating (n + 1) = .move :: .look :: alternating n := by
  simp [alternating, List.replicate_succ]

theorem WatchTurn.alternating_snoc (n : Nat) :
    alternating (n + 1) = alternating n ++ [.move] ++ [.look] := by
  simp [alternating, List.replicate_succ', List.flatten_append]

/-- Does the printing task look between any two ends of fetches? `looked` says whether it
has done so since the latest one. -/
def Session.Attended (s : Session) (looked : Bool) : List WatchTurn → Prop
  | [] => True
  | .look :: rest => s.Attended true rest
  | .move :: rest =>
    (s.phase = .fetching → looked = true) ∧ s.move.Attended (looked && s.phase ≠ .fetching) rest

theorem Session.Attended.of_append {s : Session} {looked : Bool} {turns more : List WatchTurn}
    (h : s.Attended looked (turns ++ more)) : s.Attended looked turns := by
  induction turns generalizing s looked with
  | nil => trivial
  | cons turn turns ih =>
    cases turn with
    | move => exact ⟨h.1, ih h.2⟩
    | look => exact ih (s := s) h

namespace Watch

def take (w : Watch) : WatchTurn → Watch
  | .move => { w with session := w.session.move }
  | .look => w.look

def takeAll (w : Watch) (turns : List WatchTurn) : Watch := turns.foldl take w

@[simp] theorem takeAll_nil (w : Watch) : w.takeAll [] = w := rfl

@[simp] theorem takeAll_cons (w : Watch) (turn : WatchTurn) (turns : List WatchTurn) :
    w.takeAll (turn :: turns) = (w.take turn).takeAll turns := rfl

theorem takeAll_snoc (w : Watch) (turns : List WatchTurn) (turn : WatchTurn) :
    w.takeAll (turns ++ [turn]) = (w.takeAll turns).take turn := by
  simp [takeAll, List.foldl_append]

/-- Looks leave the session alone. -/
theorem takeAll_session (w : Watch) (turns : List WatchTurn) :
    (w.takeAll turns).session = w.session.play (List.replicate (turns.count .move) .move) := by
  induction turns generalizing w with
  | nil => rfl
  | cons turn turns ih =>
    cases turn with
    | move =>
      rw [takeAll_cons, ih, List.count_cons_self, List.replicate_succ, Session.play_cons]
      rfl
    | look =>
      rw [takeAll_cons, ih, List.count_cons_of_ne (by decide), take, look_session]

/-- The printing task is told that all is over. -/
def IsOver (w : Watch) : Prop := (w.reader.ask w.session.progress).2 = .over

/-! ## What has been printed -/

/-- A watch and the records that have come to it. All of them are printed, but for the last
one if nobody has looked since it came. -/
structure Printed (looked : Bool) (records : List Application) (w : Watch) : Prop where
  asText : w.asJson = false
  shows : w.session.latest.Shows w.session.config records
  seen_le : w.reader.seen ≤ records.length
  le_seen : records.length ≤ w.reader.seen + 1
  seen_eq : looked = true → w.reader.seen = records.length
  output : w.output.toList = ("Tracking " ++ w.session.route.path) ::
    w.session.config.recordBlocks (records.take w.reader.seen)

variable {w : Watch} {looked : Bool} {records : List Application}

theorem printed_ofSession {s : Session} (hlatest : s.latest = {}) :
    (ofSession s false).Printed true [] where
  asText := rfl
  shows := by
    change s.latest.Shows s.config []
    rw [hlatest]
    exact Snapshot.shows_nothing s.config
  seen_le := Nat.le_refl 0
  le_seen := Nat.zero_le _
  seen_eq := fun _ => rfl
  output := rfl

/-- A look prints the record that has not been printed yet, if there is one. -/
theorem Printed.look (h : w.Printed looked records) : w.look.Printed true records := by
  have hsequence : w.session.progress.latest.sequence = records.length := h.shows.sequence
  by_cases hseen : w.reader.seen = records.length
  · have hask := Following.ask_of_seen (hseen.trans hsequence.symm)
    have hlook : w.look = w := by
      unfold Watch.look
      rw [hask]
      split
      · rename_i hnews
        split at hnews <;> simp at hnews
      · rename_i hnews
        rw [← (Prod.mk.inj hnews).1]
    rw [hlook]
    exact { h with seen_eq := fun _ => hseen }
  · have hle := h.seen_le
    have hnext := h.le_seen
    obtain ⟨earlier, a, rfl⟩ : ∃ earlier a, records = earlier ++ [a] := by
      rcases List.eq_nil_or_concat records with rfl | ⟨earlier, a, rfl⟩
      · simp at hle
        contradiction
      · exact ⟨earlier, a, by simp⟩
    have hask := Following.ask_of_new (fun heq => hseen (heq.trans hsequence))
    have hlook : w.look = { w with
        reader := ⟨(earlier ++ [a]).length⟩
        output := w.output ++ (w.session.config.recordBlock (earlier.length + 1) a).toArray } := by
      unfold Watch.look
      rw [hask, hsequence]
      simp only [block, h.asText, Bool.false_eq_true, if_false, h.shows.lines_eq]
    have hearlier : w.reader.seen = earlier.length := by
      simp only [List.length_append, List.length_singleton] at hle hnext hseen
      omega
    rw [hlook]
    refine ⟨h.asText, h.shows, Nat.le_refl _, Nat.le_succ _, fun _ => rfl, ?_⟩
    rw [Array.toList_append, h.output, hearlier, List.take_left, List.take_length,
      Config.recordBlocks_snoc]
    rfl

/-- A move brings one record at most, and only at the end of a fetch. -/
theorem Printed.move (h : w.Printed looked records) (hs : w.session.Sound)
    (hlooked : w.session.phase = .fetching → looked = true) :
    (w.take .move).Printed (looked && w.session.phase ≠ .fetching) (records ++
      (((w.session.occurrence? .move).bind Occurrence.result?).bind FetchResult.record?).toList) := by
  have hshows := Session.happen_shows hs h.shows .move
  have hconfig : w.session.move.config = w.session.config :=
    congrArg SessionPlan.config w.session.move_plan
  have hroute : w.session.move.route = w.session.route := by
    simp only [Session.route, Session.appId, w.session.move_plan]
  have hle := h.seen_le
  change w.session.move.latest.Shows w.session.config _ at hshows
  by_cases hfetching : w.session.phase = .fetching
  · have hseen := h.seen_eq (hlooked hfetching)
    generalize ((w.session.occurrence? .move).bind Occurrence.result?).bind FetchResult.record? = r
      at hshows ⊢
    have hone : r.toList.length ≤ 1 := by cases r <;> simp
    refine ⟨h.asText, ?_, ?_, ?_, ?_, ?_⟩
    · change w.session.move.latest.Shows w.session.move.config _
      rw [hconfig]
      exact hshows
    · change w.reader.seen ≤ _
      rw [List.length_append]
      omega
    · change _ ≤ w.reader.seen + 1
      rw [List.length_append]
      omega
    · simp [hfetching]
    · change w.output.toList = ("Tracking " ++ w.session.move.route.path) ::
        w.session.move.config.recordBlocks (_ : List Application)
      rw [h.output, hconfig, hroute]
      change _ = _ :: w.session.config.recordBlocks (List.take w.reader.seen _)
      rw [hseen, List.take_length, List.take_left]
  · have hnone := Session.no_result_of_move hs (fun hboth => hfetching hboth.1)
    rw [hnone, Option.bind_none, Option.toList_none, List.append_nil] at hshows ⊢
    refine ⟨h.asText, ?_, hle, h.le_seen, ?_, ?_⟩
    · change w.session.move.latest.Shows w.session.move.config _
      rw [hconfig]
      exact hshows
    · intro hboth
      exact h.seen_eq (by simpa [hfetching] using hboth)
    · change w.output.toList = ("Tracking " ++ w.session.move.route.path) ::
        w.session.move.config.recordBlocks (List.take w.reader.seen records)
      rw [h.output, hconfig, hroute]

/-- Whenever the printing task looks between any two ends of fetches, it prints every record
of the run once, in order. -/
theorem Printed.takeAll (h : w.Printed looked records) (hs : w.session.Sound)
    {turns : List WatchTurn} (hattended : w.session.Attended looked turns) :
    ∃ looked', (w.takeAll turns).Printed looked'
      (records ++ w.session.records (List.replicate (turns.count .move) .move)) := by
  induction turns generalizing w looked records with
  | nil =>
    refine ⟨looked, ?_⟩
    rw [List.count_nil, List.replicate_zero]
    simpa [Session.records, Session.results, Session.history] using h
  | cons turn turns ih =>
    cases turn with
    | look =>
      have hrest := ih (w := w.look) h.look
      rw [look_session] at hrest
      rw [takeAll_cons, List.count_cons_of_ne (by decide)]
      exact hrest hs hattended
    | move =>
      obtain ⟨hlooked, hattended⟩ := hattended
      obtain ⟨looked', hprinted⟩ := ih (h.move hs hlooked) (Session.happen_spec hs .move).1 hattended
      refine ⟨looked', ?_⟩
      rw [takeAll_cons, List.count_cons_self, List.replicate_succ, Session.records_cons,
        ← List.append_assoc]
      exact hprinted

/-- Once the printing task is told that all is over, every record is printed and the loop has
ended. -/
theorem Printed.of_over (h : w.Printed looked records) (hover : w.IsOver) :
    w.Printed true records ∧ w.session.phase.isEnded = true := by
  have hsequence : w.session.progress.latest.sequence = records.length := h.shows.sequence
  unfold IsOver at hover
  by_cases hseen : w.reader.seen = records.length
  · rw [Following.ask_of_seen (hseen.trans hsequence.symm)] at hover
    refine ⟨{ h with seen_eq := fun _ => hseen }, ?_⟩
    simpa [Session.progress] using hover
  · rw [Following.ask_of_new (fun heq => hseen (heq.trans hsequence))] at hover
    contradiction

/-- After the end, the printing task looks once more at most. -/
theorem Printed.look_over (h : w.Printed looked records) (hended : w.session.phase.isEnded = true) :
    w.look.IsOver := by
  have hseen := h.look.seen_eq rfl
  have hsequence : w.look.session.progress.latest.sequence = records.length := h.look.shows.sequence
  have hclosed : w.look.session.progress.isOpen = false := by
    rw [look_session]
    simp [Session.progress, hended]
  unfold IsOver
  rw [Following.ask_of_seen (hseen.trans hsequence.symm), hclosed]
  rfl

/-! ## Running -/

theorem runWhile_session (goes : Session → Bool) (limit : Nat) (w : Watch) :
    (w.runWhile goes limit).session = w.session.runWhile goes limit := by
  fun_induction Watch.runWhile goes limit w with
  | case1 w hnone =>
    rw [Session.runWhile_of_late]
    intro due hdue
    rw [hnone] at hdue
    contradiction
  | case2 w due hdue hgoes ih =>
    rw [ih, move_session, Session.runWhile_of_due due hdue hgoes]
  | case3 w due hdue hlate =>
    rw [Session.runWhile_of_late]
    intro due' hdue'
    rw [hdue] at hdue'
    rwa [← Option.some.inj hdue']

/-- A watch that runs by itself looks after each move. -/
theorem exists_takeAll_runWhile (goes : Session → Bool) (limit : Nat) (w : Watch) :
    ∃ n, w.runWhile goes limit = w.takeAll (WatchTurn.alternating n) := by
  fun_induction Watch.runWhile goes limit w with
  | case1 w hnone => exact ⟨0, rfl⟩
  | case2 w due hdue hgoes ih =>
    obtain ⟨n, hn⟩ := ih
    refine ⟨n + 1, ?_⟩
    rw [hn, WatchTurn.alternating_succ]
    rfl
  | case3 w due hdue hlate => exact ⟨0, rfl⟩

end Watch

theorem Session.attended_alternating (s : Session) (n : Nat) :
    s.Attended true (WatchTurn.alternating n) := by
  induction n generalizing s with
  | zero => trivial
  | succ n ih =>
    rw [WatchTurn.alternating_succ]
    exact ⟨fun _ => rfl, ih s.move⟩

end Provisioning
