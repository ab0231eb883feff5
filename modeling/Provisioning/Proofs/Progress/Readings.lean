-- What a reader reads. It is told of each number once, in rising order. What it then reads
-- may be newer than what it was told of, and of that it is told once more: a snapshot may
-- be read twice, and never a third time.
import Provisioning.Proofs.Progress.Following

namespace Provisioning

/-! ## Readings -/

/-- One reading: the number that the reader was told of before it, and the snapshot that it
found. -/
structure Reading where
  announced : Nat
  shot : Snapshot

/-- Of two readings, what the later one owes to the earlier one. -/
structure Reading.Precedes (r later : Reading) : Prop where
  announced_lt : r.announced < later.announced
  shot_le : r.shot.sequence ≤ later.announced
  announced_le : later.announced ≤ later.shot.sequence
  same : later.shot.sequence = r.shot.sequence → later.shot = r.shot

namespace Following

/-- The reader reads once after each change that it is told of, and not otherwise. -/
def ReadsOnce (f : Following) : List ReaderTurn → Prop
  | [] => True
  | .signal x :: rest => (f.take (.signal x)).ReadsOnce rest
  | .ask :: rest => f.owes = false ∧ (f.take .ask).ReadsOnce rest
  | .read :: rest => f.owes = true ∧ (f.take .read).ReadsOnce rest

/-- Nothing is published between a change that the reader is told of and its reading. -/
def Undisturbed (f : Following) : List ReaderTurn → Prop
  | [] => True
  | .signal (.published p) :: rest =>
    f.owes = false ∧ (f.take (.signal (.published p))).Undisturbed rest
  | turn :: rest => (f.take turn).Undisturbed rest

/-- All that the reader reads, in order. -/
def readings (f : Following) : List ReaderTurn → List Reading
  | [] => []
  | .read :: rest => ⟨f.reader.seen, f.channel.latest⟩ :: (f.take .read).readings rest
  | turn :: rest => (f.take turn).readings rest

theorem shots_takeAll (f : Following) (turns : List ReaderTurn) :
    (f.takeAll turns).shots = f.shots ++ (f.readings turns).map Reading.shot := by
  induction turns generalizing f with
  | nil => simp [takeAll, readings]
  | cons turn rest ih =>
    have hstep : f.takeAll (turn :: rest) = (f.take turn).takeAll rest := rfl
    rw [hstep, ih]
    cases turn with
    | signal x => rfl
    | ask => rfl
    | read => simp [take, readings]

/-! ## What comes after a moment -/

/-- A reading that comes later: it is of something at least as new as what there is now. If
the reader has nothing left to read, it will be told of a number that it has not seen. -/
structure Awaits (f : Following) (r : Reading) : Prop where
  seen_le : f.reader.seen ≤ r.announced
  announced_le : r.announced ≤ r.shot.sequence
  latest_le : f.channel.latest.sequence ≤ r.shot.sequence
  same : r.shot.sequence = f.channel.latest.sequence → r.shot = f.channel.latest
  fresh : f.owes = false →
    f.reader.seen < r.announced ∧ f.channel.latest.sequence ≤ r.announced

section
variable {f : Following} {r : Reading}

theorem Awaits.of_signal {x : Signal} (hx : f.channel.Expects x)
    (h : (f.take (.signal x)).Awaits r) : f.Awaits r := by
  cases x with
  | closed => exact ⟨h.seen_le, h.announced_le, h.latest_le, h.same, h.fresh⟩
  | published p =>
    have hnext := hx.sequence p rfl
    have hle : p.sequence ≤ r.shot.sequence := h.latest_le
    refine ⟨h.seen_le, h.announced_le, by omega, ?_, ?_⟩
    · intro hsame
      omega
    · intro howes
      obtain ⟨hseen, hnew⟩ : f.reader.seen < r.announced ∧ p.sequence ≤ r.announced :=
        h.fresh howes
      exact ⟨hseen, by omega⟩

theorem Awaits.of_ask (hf : f.Informed) (howes : f.owes = false) (h : (f.take .ask).Awaits r) :
    f.Awaits r := by
  have hle := hf.seen_le
  by_cases hseen : f.reader.seen = f.channel.latest.sequence
  · have hnews : (f.owes || (if f.channel.isOpen then News.nothing else .over) == .changed) =
        false := by
      rw [howes]
      split <;> rfl
    simp only [take, ask_of_seen hseen, hnews] at h
    exact ⟨h.seen_le, h.announced_le, h.latest_le, h.same, fun _ => h.fresh rfl⟩
  · simp only [take, ask_of_new hseen] at h
    have hnew : f.channel.latest.sequence ≤ r.announced := h.seen_le
    exact ⟨by omega, h.announced_le, h.latest_le, h.same, fun _ => ⟨by omega, hnew⟩⟩

theorem Awaits.of_read (howes : f.owes = true) (h : (f.take .read).Awaits r) : f.Awaits r where
  seen_le := h.seen_le
  announced_le := h.announced_le
  latest_le := h.latest_le
  same := h.same
  fresh := by simp [howes]

/-- What is read now, for a reader that owes a reading. -/
theorem awaits_now (hf : f.Informed) (howes : f.owes = true) :
    f.Awaits ⟨f.reader.seen, f.channel.latest⟩ where
  seen_le := Nat.le_refl _
  announced_le := hf.seen_le
  latest_le := Nat.le_refl _
  same := fun _ => rfl
  fresh := by simp [howes]

/-- After a reading, whatever is read later comes after it. -/
theorem precedes_of_awaits (h : (f.take .read).Awaits r) :
    Reading.Precedes ⟨f.reader.seen, f.channel.latest⟩ r where
  announced_lt := (h.fresh rfl).1
  shot_le := (h.fresh rfl).2
  announced_le := h.announced_le
  same := h.same

end

/-! ## All readings -/

theorem awaits_of_mem {f : Following} (hf : f.Informed) {turns : List ReaderTurn}
    (horder : f.channel.InOrder (turns.filterMap ReaderTurn.signal?)) (hreads : f.ReadsOnce turns) :
    ∀ r ∈ f.readings turns, f.Awaits r := by
  induction turns generalizing f with
  | nil => simp [readings]
  | cons turn rest ih =>
    intro r hr
    cases turn with
    | signal x => exact .of_signal horder.1 (ih (hf.signal horder.1) horder.2 hreads r hr)
    | ask =>
      obtain ⟨howes, hrest⟩ := hreads
      exact .of_ask hf howes (ih hf.ask horder hrest r hr)
    | read =>
      obtain ⟨howes, hrest⟩ := hreads
      rcases List.mem_cons.mp hr with rfl | hr
      · exact awaits_now hf howes
      · exact .of_read howes (ih hf.read horder hrest r hr)

theorem readings_pairwise {f : Following} (hf : f.Informed) {turns : List ReaderTurn}
    (horder : f.channel.InOrder (turns.filterMap ReaderTurn.signal?)) (hreads : f.ReadsOnce turns) :
    (f.readings turns).Pairwise Reading.Precedes := by
  induction turns generalizing f with
  | nil => exact List.Pairwise.nil
  | cons turn rest ih =>
    cases turn with
    | signal x => exact ih (hf.signal horder.1) horder.2 hreads
    | ask => exact ih hf.ask horder hreads.2
    | read =>
      have horder : (f.take .read).channel.InOrder (rest.filterMap ReaderTurn.signal?) := horder
      apply List.Pairwise.cons
      · intro r hr
        exact precedes_of_awaits (awaits_of_mem hf.read horder hreads.2 r hr)
      · exact ih hf.read horder hreads.2

/-- Without anything published in between, a reader reads what it was told of. -/
theorem announced_of_undisturbed {f : Following}
    (hnew : f.owes = true → f.reader.seen = f.channel.latest.sequence) {turns : List ReaderTurn}
    (hreads : f.ReadsOnce turns) (h : f.Undisturbed turns) :
    ∀ r ∈ f.readings turns, r.announced = r.shot.sequence := by
  induction turns generalizing f with
  | nil => simp [readings]
  | cons turn rest ih =>
    intro r hr
    cases turn with
    | signal x =>
      cases x with
      | closed => exact ih (f := f.take (.signal .closed)) hnew hreads h r hr
      | published p =>
        obtain ⟨howes, hrest⟩ := h
        refine ih ?_ hreads hrest r hr
        intro howes'
        exact absurd (howes.symm.trans howes') (by simp)
    | ask =>
      refine ih ?_ hreads.2 h r hr
      intro _
      by_cases hseen : f.reader.seen = f.channel.latest.sequence
      · simp only [take, ask_of_seen hseen]
        exact hseen
      · simp only [take, ask_of_new hseen]
    | read =>
      rcases List.mem_cons.mp hr with rfl | hr
      · exact hnew hreads.1
      · exact ih (by simp [take]) hreads.2 h r hr

end Following

/-! ## The law -/

namespace Session

/-- A reader takes its handle at any moment of any run, after the signals in `earlier`, and
reads once after each change that it is told of, while more signals come.

The numbers that it is told of go up, so no change is told of twice. What it reads is never
older than what it was told of, and the numbers of its readings never go down. Two readings
with one number are of one snapshot, and the first of them came after it had been published
on top of the one that was told of. No snapshot is read a third time. As long as nothing is
published between a change and its reading, the numbers of the readings go up. -/
theorem no_snapshot_is_read_a_third_time {config : Config}
    (hvalid : config.validate = .ok config) (id appId : String) (source : Playback)
    (navigator : Navigator) (sink : SinkKind) (timeText : Nat → String) :
    ∃ s₀, Session.start id appId config source navigator sink timeText = .ok s₀ ∧
      ∀ (hs : List Happening) (earlier : List Signal) (turns : List ReaderTurn),
        let handle : Following := { channel := s₀.progress.afterAll earlier }
        let readings := handle.readings turns
        earlier ++ turns.filterMap ReaderTurn.signal? <+: s₀.signals hs → handle.ReadsOnce turns →
          (handle.takeAll turns).shots = readings.map Reading.shot ∧
          (readings.map Reading.announced).Pairwise (· < ·) ∧
          (∀ r ∈ readings, r.announced ≤ r.shot.sequence) ∧
          readings.Pairwise (fun r later => r.shot.sequence ≤ later.shot.sequence ∧
            (later.shot.sequence = r.shot.sequence →
              later.shot = r.shot ∧ r.announced < r.shot.sequence)) ∧
          (∀ first second third, [first, second, third].Sublist readings →
            first.shot.sequence < third.shot.sequence) ∧
          (handle.Undisturbed turns → (readings.map (·.shot.sequence)).Pairwise (· < ·)) := by
  obtain ⟨s₀, hstart, hs₀⟩ := exists_started hvalid id appId source navigator sink timeText
  refine ⟨s₀, hstart, ?_⟩
  intro hs earlier turns handle readings hmet hreads
  have hall := inOrder_of_prefix hs₀.toSound hmet
  have horder := (ProgressChannel.inOrder_append.mp hall).2
  have hhandle : handle.Informed := Following.informed_start _
  have hawaits := Following.awaits_of_mem hhandle horder hreads
  have hprecedes := Following.readings_pairwise hhandle horder hreads
  refine ⟨handle.shots_takeAll turns, ?_, fun r hr => (hawaits r hr).announced_le, ?_, ?_, ?_⟩
  · rw [List.pairwise_map]
    exact hprecedes.imp Reading.Precedes.announced_lt
  · refine hprecedes.imp ?_
    intro r later h
    have hannounced := h.announced_lt
    have hshot := h.shot_le
    have hlater := h.announced_le
    exact ⟨by omega, fun hsame => ⟨h.same hsame, by omega⟩⟩
  · intro first second third htriple
    have htriple := hprecedes.sublist htriple
    simp only [List.pairwise_cons, List.mem_cons, List.not_mem_nil, or_false, forall_eq_or_imp,
      forall_eq] at htriple
    obtain ⟨⟨hsecond, -⟩, hthird, -⟩ := htriple
    have hshot := hsecond.shot_le
    have hannounced := hthird.announced_lt
    have hlater := hthird.announced_le
    omega
  · intro hquiet
    have hexact := Following.announced_of_undisturbed (by simp [handle]) hreads hquiet
    rw [List.pairwise_map]
    refine hprecedes.imp_of_mem ?_
    intro r later hr _ h
    have hannounced := h.announced_lt
    have hlater := h.announced_le
    have := hexact r hr
    omega

/-- A source of two records. -/
def twoRecords : Playback where
  script := [.ok (.reporting "a1" "environment_vars" "creating"),
    .ok (.reporting "a1" "environment_vars" "uploading")]

/-- Two records are published, and each is read before the next one comes. -/
theorem two_snapshots_are_read_in_turn :
    ∃ s₀, Session.start "s1" "a1" Config.standard twoRecords (.recording []) .discarding
        (fun _ => "") = .ok s₀ ∧
      ∃ p q, s₀.signals [.move, .move, .move, .move] = [.published p, .published q] ∧
        let handle : Following := { channel := s₀.progress }
        let turns := [.signal (.published p), .ask, .read, .ask, .signal (.published q), .ask, .read]
        handle.ReadsOnce turns ∧ handle.Undisturbed turns ∧
          (handle.readings turns).map (·.shot.sequence) = [1, 2] ∧
          ((handle.readings turns).map (·.shot.sequence)).Pairwise (· < ·) := by
  obtain ⟨s₀, hstart, hlaw⟩ := no_snapshot_is_read_a_third_time Config.standard_validate "s1" "a1"
    twoRecords (.recording []) .discarding (fun _ => "")
  have hs₀ := hstart
  rw [start_of_validate Config.standard_validate] at hs₀
  cases hs₀
  refine ⟨_, hstart, _, _, rfl, ?_⟩
  intro handle turns
  have hreads : handle.ReadsOnce turns := ⟨rfl, rfl, rfl, rfl, rfl, trivial⟩
  have hquiet : handle.Undisturbed turns := ⟨rfl, rfl, trivial⟩
  obtain ⟨-, -, -, -, -, hup⟩ := hlaw [.move, .move, .move, .move] [] turns (List.prefix_refl _) hreads
  exact ⟨hreads, hquiet, rfl, hup hquiet⟩

/-- A record that is published between a change and its reading is read twice. -/
theorem snapshot_between_change_and_reading_is_read_twice :
    ∃ s₀, Session.start "s1" "a1" Config.standard twoRecords (.recording []) .discarding
        (fun _ => "") = .ok s₀ ∧
      ∃ p q, s₀.signals [.move, .move, .move, .move] = [.published p, .published q] ∧
        let handle : Following := { channel := s₀.progress }
        let turns := [.signal (.published p), .ask, .signal (.published q), .read, .ask, .read]
        handle.ReadsOnce turns ∧ (handle.takeAll turns).told = [.changed, .changed] ∧
          (handle.readings turns).map (·.shot.sequence) = [2, 2] ∧
          ¬ ((handle.readings turns).map (·.shot.sequence)).Pairwise (· < ·) := by
  refine ⟨_, start_of_validate Config.standard_validate .., _, _, rfl, ?_⟩
  intro handle turns
  have hsequences : (handle.readings turns).map (·.shot.sequence) = [2, 2] := rfl
  refine ⟨⟨rfl, rfl, rfl, rfl, trivial⟩, rfl, hsequences, ?_⟩
  rw [hsequences]
  decide

end Session

end Provisioning
