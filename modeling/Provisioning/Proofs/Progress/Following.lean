-- A reader that follows the progress of a session: it asks for news and, when there are
-- some, reads. Signals may come between any two of its turns. When it is told that all is
-- over, it has read the last snapshot.
import Provisioning.Proofs.Progress.Signals

namespace Provisioning

/-! ## A reader among signals -/

/-- What comes next at a reader's: a signal arrives, it asks, or it reads. -/
inductive ReaderTurn
  | signal (x : Signal)
  | ask
  | read

def ReaderTurn.signal? : ReaderTurn → Option Signal
  | signal x => some x
  | _ => none

/-- A reader with all that it has been told and has read. -/
structure Following where
  channel : ProgressChannel
  reader : ProgressReader := {}
  told : List News := []
  shots : List Snapshot := []
  /-- Has it been told of a change that it has not read? -/
  owes : Bool := false

namespace Following

def take (f : Following) : ReaderTurn → Following
  | .signal x => { f with channel := f.channel.after x }
  | .ask =>
    let (reader, news) := f.reader.ask f.channel
    { f with reader, told := f.told ++ [news], owes := f.owes || news == .changed }
  | .read => { f with shots := f.shots ++ [f.channel.latest], owes := false }

def takeAll (f : Following) (turns : List ReaderTurn) : Following := turns.foldl take f

/-- The reader reads after each change before it asks again. -/
def Diligent (f : Following) : List ReaderTurn → Prop
  | [] => True
  | turn :: rest => (turn = .ask → f.owes = false) ∧ (f.take turn).Diligent rest

theorem diligent_append {f : Following} {turns more : List ReaderTurn} :
    f.Diligent (turns ++ more) ↔ f.Diligent turns ∧ (f.takeAll turns).Diligent more := by
  induction turns generalizing f with
  | nil => simp [Diligent, takeAll]
  | cons turn rest ih =>
    simp only [List.cons_append, Diligent, ih, and_assoc]
    rfl

/-- What the reader does leaves the channel alone. -/
theorem takeAll_channel (f : Following) (turns : List ReaderTurn) :
    (f.takeAll turns).channel = f.channel.afterAll (turns.filterMap ReaderTurn.signal?) := by
  induction turns generalizing f with
  | nil => rfl
  | cons turn rest ih =>
    have hstep : f.takeAll (turn :: rest) = (f.take turn).takeAll rest := rfl
    rw [hstep, ih]
    cases turn <;> rfl

/-! ## What the reader knows -/

/-- A reader knows at most the newest number. Unless it has still to read, the last thing
that it read is at least as new as what it was told of last. -/
structure Informed (f : Following) : Prop where
  seen_le : f.reader.seen ≤ f.channel.latest.sequence
  has_read : f.owes = false → f.reader.seen ≠ 0 →
    ∃ p, f.shots.getLast? = some p ∧ f.reader.seen ≤ p.sequence ∧
      p.sequence ≤ f.channel.latest.sequence ∧
      (p.sequence = f.channel.latest.sequence → p = f.channel.latest)
  changed_iff : .changed ∈ f.told ↔ f.reader.seen ≠ 0

theorem informed_start (channel : ProgressChannel) : Informed { channel } where
  seen_le := Nat.zero_le _
  has_read := fun _ hseen => absurd rfl hseen
  changed_iff := by simp

/-- A new snapshot has a higher number than all that was read. -/
theorem Informed.signal {f : Following} (h : f.Informed) {x : Signal}
    (hx : f.channel.Expects x) : (f.take (.signal x)).Informed := by
  cases x with
  | closed => exact ⟨h.seen_le, h.has_read, h.changed_iff⟩
  | published p =>
    have hnext := hx.sequence p rfl
    have hseen := h.seen_le
    refine ⟨?_, ?_, h.changed_iff⟩
    · show f.reader.seen ≤ p.sequence
      omega
    · intro howes hne
      obtain ⟨shot, hlast, hnew, hle, -⟩ := h.has_read howes hne
      refine ⟨shot, hlast, hnew, ?_, ?_⟩
      · show shot.sequence ≤ p.sequence
        omega
      · intro heq
        have : shot.sequence = p.sequence := heq
        omega

/-- A number that the reader has not seen is a change. -/
theorem ask_of_new {r : ProgressReader} {c : ProgressChannel} (h : r.seen ≠ c.latest.sequence) :
    r.ask c = (⟨c.latest.sequence⟩, .changed) := by
  unfold ProgressReader.ask
  rw [if_pos h]

/-- Without one, the reader is told of the end or of nothing, and knows what it knew. -/
theorem ask_of_seen {r : ProgressReader} {c : ProgressChannel} (h : r.seen = c.latest.sequence) :
    r.ask c = (r, if c.isOpen then .nothing else .over) := by
  unfold ProgressReader.ask
  rw [if_neg (by simp [h])]
  split <;> rfl

theorem Informed.ask {f : Following} (h : f.Informed) : (f.take .ask).Informed := by
  have hle := h.seen_le
  by_cases hseen : f.reader.seen = f.channel.latest.sequence
  · have hnews : (if f.channel.isOpen then News.nothing else .over) ≠ .changed := by
      split <;> simp
    simp only [take, ask_of_seen hseen]
    refine ⟨h.seen_le, ?_, ?_⟩
    · intro howes hne
      simp only [Bool.or_eq_false_iff] at howes
      exact h.has_read howes.1 hne
    · rw [List.mem_append, h.changed_iff, List.mem_singleton]
      exact or_iff_left hnews.symm
  · simp only [take, ask_of_new hseen]
    refine ⟨Nat.le_refl _, ?_, ?_⟩
    · intro howes
      simp at howes
    · simp only [List.mem_append, List.mem_singleton, or_true, true_iff]
      omega

theorem Informed.read {f : Following} (h : f.Informed) : (f.take .read).Informed where
  seen_le := h.seen_le
  has_read := by
    intro _ _
    exact ⟨f.channel.latest, by simp [take], h.seen_le, Nat.le_refl _, fun _ => rfl⟩
  changed_iff := h.changed_iff

/-- A reader stays informed as long as signals come in order. -/
theorem Informed.takeAll {f : Following} (h : f.Informed) {turns : List ReaderTurn}
    (horder : f.channel.InOrder (turns.filterMap ReaderTurn.signal?)) :
    (f.takeAll turns).Informed := by
  induction turns generalizing f with
  | nil => exact h
  | cons turn rest ih =>
    cases turn with
    | signal x => exact ih (h.signal horder.1) horder.2
    | ask => exact ih h.ask horder
    | read => exact ih h.read horder

/-! ## The end -/

/-- A reader is told that all is over only after the end, when it knows the newest number. -/
theorem seen_of_over {f : Following} (hover : (f.reader.ask f.channel).2 = .over) :
    f.channel.isOpen = false ∧ f.reader.seen = f.channel.latest.sequence := by
  by_cases hseen : f.reader.seen = f.channel.latest.sequence
  · rw [ask_of_seen hseen] at hover
    exact ⟨by simpa using hover, hseen⟩
  · rw [ask_of_new hseen] at hover
    contradiction

/-- If it has read after each change, it has nothing left to read then. -/
theorem Informed.shots_of_over {f : Following} (h : f.Informed) (howes : f.owes = false)
    (hover : (f.reader.ask f.channel).2 = .over) (hne : f.reader.seen ≠ 0) :
    f.shots.getLast? = some f.channel.latest := by
  have hseen := (seen_of_over hover).2
  obtain ⟨shot, hlast, hnew, hle, hsame⟩ := h.has_read howes hne
  rw [hlast, hsame (by omega)]

/-- After the end, a reader is told of one more change at most, and then that all is over. -/
theorem over_after_closed {f : Following} (hclosed : f.channel.isOpen = false) :
    (f.reader.ask f.channel).2 = .over ∨
      (f.reader.ask f.channel).2 = .changed ∧
        (((f.take .ask).take .read).reader.ask ((f.take .ask).take .read).channel).2 = .over := by
  by_cases hseen : f.reader.seen = f.channel.latest.sequence
  · left
    simp [ask_of_seen hseen, hclosed]
  · right
    simp only [take, ask_of_new hseen]
    refine ⟨trivial, ?_⟩
    rw [ask_of_seen rfl]
    simp [hclosed]

end Following

/-! ## The law -/

namespace Session

theorem inOrder_of_prefix {s : Session} (hs : s.Sound) {hs' : List Happening} {seen : List Signal}
    (hbegun : seen <+: s.signals hs') : s.progress.InOrder seen := by
  obtain ⟨rest, hrest⟩ := hbegun
  have horder := (play_signals hs hs').1
  rw [← hrest, ProgressChannel.inOrder_append] at horder
  exact horder.1

/-- Whoever has met the end has met every signal, and the loop has ended. -/
theorem signals_of_closed {s : Session} (hs : s.Sound) {hs' : List Happening} {seen : List Signal}
    (hbegun : seen <+: s.signals hs') (hclosed : (s.progress.afterAll seen).isOpen = false) :
    s.signals hs' = seen ∧ (s.play hs').phase.isEnded = true := by
  obtain ⟨rest, hrest⟩ := hbegun
  obtain ⟨horder, hafter⟩ := play_signals hs hs'
  rw [← hrest, ProgressChannel.inOrder_append] at horder
  have hnil := horder.2.nil_of_closed hclosed
  rw [hnil, List.append_nil] at hrest
  rw [← hrest] at hafter
  rw [hafter] at hclosed
  exact ⟨hrest.symm, by simpa [progress] using hclosed⟩

/-- A reader takes its handle at any moment of any run, after the signals in `earlier`,
and then asks and reads while more signals come.

When it is told that all is over, the loop has ended, there will be no signal that it has
not met, and it was told of a change exactly if there was one. If it has read after each
change before it asked again, it has then read the last snapshot that was ever published.
At any time a change was told of only if something was published; once something was, the
first thing that a reader is told is a change; and after the end it is told of one more
change at most before it is told that all is over. A reader that has met all signals of a
run sees what the session makes known then. -/
theorem no_final_update_is_lost {config : Config} (hvalid : config.validate = .ok config)
    (id appId : String) (source : Playback) (navigator : Navigator) (sink : SinkKind)
    (timeText : Nat → String) :
    ∃ s₀, Session.start id appId config source navigator sink timeText = .ok s₀ ∧
      ∀ (hs : List Happening) (earlier : List Signal) (turns : List ReaderTurn),
        let met := earlier ++ turns.filterMap ReaderTurn.signal?
        let published := met.filterMap Signal.snapshot?
        let handle : Following := { channel := s₀.progress.afterAll earlier }
        let f := handle.takeAll turns
        met <+: s₀.signals hs →
          ((f.reader.ask f.channel).2 = .over →
            (s₀.play hs).phase.isEnded = true ∧ (∀ more, s₀.signals (hs ++ more) = met) ∧
            (.changed ∈ f.told ↔ published ≠ []) ∧
            (handle.Diligent (turns ++ [.ask]) → published ≠ [] →
              f.shots.getLast? = published.getLast?)) ∧
          (.changed ∈ f.told → published ≠ []) ∧
          (published ≠ [] → .changed ∉ f.told → (f.reader.ask f.channel).2 = .changed) ∧
          (f.channel.isOpen = false → (f.reader.ask f.channel).2 = .over ∨
            (f.reader.ask f.channel).2 = .changed ∧
              (((f.take .ask).take .read).reader.ask f.channel).2 = .over) ∧
          (met = s₀.signals hs → f.channel = (s₀.play hs).progress) := by
  obtain ⟨s₀, hstart, hs₀⟩ := exists_started hvalid id appId source navigator sink timeText
  have hsound := hs₀.toSound
  refine ⟨s₀, hstart, ?_⟩
  intro hs earlier turns met published handle f hmet
  have hchannel : f.channel = s₀.progress.afterAll met := by
    rw [ProgressChannel.afterAll_append]
    exact Following.takeAll_channel handle turns
  have horder := inOrder_of_prefix hsound hmet
  have hf : f.Informed :=
    (Following.informed_start _).takeAll (ProgressChannel.inOrder_append.mp horder).2
  obtain ⟨hlatest, hsequence⟩ := horder.latest
  have hempty : s₀.progress.latest = {} := hs₀.latest
  rw [← hchannel, hempty] at hlatest hsequence
  have hcount : f.channel.latest.sequence = published.length := by
    rw [hsequence]
    exact Nat.zero_add _
  have hne : published ≠ [] ↔ f.channel.latest.sequence ≠ 0 := by
    rw [hcount, ne_eq, ne_eq, List.length_eq_zero_iff]
  have hle := hf.seen_le
  refine ⟨?_, ?_, ?_, fun hclosed => Following.over_after_closed hclosed, ?_⟩
  · intro hover
    obtain ⟨hclosed, hseen⟩ := Following.seen_of_over hover
    rw [hchannel] at hclosed
    refine ⟨(signals_of_closed hsound hmet hclosed).2, ?_, ?_, ?_⟩
    · intro more
      refine (signals_of_closed hsound ?_ hclosed).1
      rw [signals_append]
      exact hmet.trans (List.prefix_append _ _)
    · rw [hf.changed_iff, hne, hseen]
    · intro hdiligent hsome
      have howes : f.owes = false := ((Following.diligent_append.mp hdiligent).2).1 rfl
      rw [hf.shots_of_over howes hover (by rw [hseen]; exact hne.mp hsome), hlatest]
      obtain ⟨p, hp⟩ := Option.ne_none_iff_exists'.mp (mt List.getLast?_eq_none_iff.mp hsome)
      change (met.filterMap Signal.snapshot?).getLast? = some p at hp
      rw [hp, Option.getD_some]
  · intro htold
    have hseen := hf.changed_iff.mp htold
    exact hne.mpr (by omega)
  · intro hsome htold
    have hseen : f.reader.seen = 0 := by
      by_contra hseen
      exact htold (hf.changed_iff.mpr hseen)
    rw [Following.ask_of_new (by rw [hseen]; exact (hne.mp hsome).symm)]
  · intro hall
    rw [hchannel, hall]
    exact (play_signals hsound hs).2

/-- The record that ends provisioning is published and the loop ends at once; a reader that
asks in between reads it and is then told that all is over. -/
theorem terminal_record_is_read_before_the_end :
    ∃ s₀, Session.start "s1" "a1" Config.standard
        { script := [.ok (.reporting "a1" "environment_vars" "finished")] } (.recording [])
        .discarding (fun _ => "") = .ok s₀ ∧
      let p := (s₀.play [.move, .move]).latest
      let f := Following.takeAll { channel := s₀.progress }
        [.signal (.published p), .ask, .read, .signal .closed]
      p.state = some "finished" ∧ (f.reader.ask f.channel).2 = .over ∧
        f.shots.getLast? = some p ∧ .changed ∈ f.told := by
  obtain ⟨s₀, hstart, hlaw⟩ := no_final_update_is_lost Config.standard_validate "s1" "a1"
    { script := [.ok (.reporting "a1" "environment_vars" "finished")] } (.recording [])
    .discarding (fun _ => "")
  refine ⟨s₀, hstart, ?_⟩
  intro p f
  have hs₀ := hstart
  rw [start_of_validate Config.standard_validate] at hs₀
  have hsignals : s₀.signals [.move, .move] = [.published p, .closed] := by
    cases hs₀
    rfl
  have hstate : p.state = some "finished" := by
    cases hs₀
    rfl
  have hover : (f.reader.ask f.channel).2 = .over := by
    cases hs₀
    rfl
  have hmet : [.published p, .closed] <+: s₀.signals [.move, .move] := by
    refine ⟨[], ?_⟩
    rw [hsignals, List.append_nil]
  obtain ⟨hend, -⟩ := hlaw [.move, .move] [] [.signal (.published p), .ask, .read, .signal .closed]
    hmet
  obtain ⟨-, -, htold, hlast⟩ := hend hover
  refine ⟨hstate, hover, ?_, ?_⟩
  · exact hlast ⟨by simp, fun _ => rfl, by simp, by simp, fun _ => rfl, trivial⟩
      (by simp [ReaderTurn.signal?, Signal.snapshot?])
  · exact htold.mpr (by simp [ReaderTurn.signal?, Signal.snapshot?])

end Session

end Provisioning
