-- The latest snapshot of a session, read off its records alone: how many there
-- have been and what the last one says. Nothing else leaves a trace in it.
import Provisioning.Proofs.Session.Fetches

namespace Provisioning

/-! ## The state in a record -/

theorem Json.Value.members?_eq_some {v : Json.Value} {members : Json.Members} :
    v.members? = some members ↔ v = .object members := by
  cases v <;> simp [Json.Value.members?]

theorem Json.Value.string?_eq_some {v : Json.Value} {text : String} :
    v.string? = some text ↔ v = .string text := by
  cases v <;> simp [Json.Value.string?]

/-- A record reports a state if its metadata is an object with that string in it. -/
theorem Application.state_eq_some (a : Application) (c : Config) (text : String) :
    a.state c = some text ↔ ∃ members, a.extra.find? c.metadataKey = some (.object members) ∧
      Json.Members.find? members c.stateField = some (.string text) := by
  simp only [Application.state, metadataText, metadata, Option.bind_eq_some_iff,
    Json.Value.members?_eq_some, Json.Value.string?_eq_some]
  constructor
  · rintro ⟨v, ⟨members, ⟨w, hw, rfl⟩, hv⟩, rfl⟩
    exact ⟨members, hw, hv⟩
  · rintro ⟨members, hobject, hstring⟩
    exact ⟨_, ⟨members, ⟨_, hobject, rfl⟩, hstring⟩, rfl⟩

/-! ## A snapshot and the records before it -/

/-- A snapshot shows a row of records: it counts them and gives the last one. -/
structure Snapshot.Shows (c : Config) (records : List Application) (p : Snapshot) : Prop where
  sequence : p.sequence = records.length
  empty : records = [] → p = {}
  application : p.application = records.getLast?
  state : p.state = records.getLast?.bind fun a => a.state c
  level : p.level = p.state.bind c.stateLevel

theorem Snapshot.shows_nothing (c : Config) : Snapshot.Shows c [] {} where
  sequence := rfl
  empty := fun _ => rfl
  application := rfl
  state := rfl
  level := rfl

/-- One more record, whatever the snapshot before it. -/
theorem Snapshot.Shows.next {c : Config} {records : List Application} {p : Snapshot}
    (h : p.Shows c records) (a : Application) (time : String) :
    (p.next c a time).Shows c (records ++ [a]) where
  sequence := by simp [Snapshot.next, h.sequence]
  empty := by simp
  application := by simp [Snapshot.next]
  state := by simp [Snapshot.next]
  level := rfl

namespace Session

/-- What happens to a snapshot: a record that arrives makes the next one, and anything
else leaves it as it is. -/
theorem happen_latest {s : Session} (hs : s.Sound) (h : Happening) :
    (∃ a time, s.occurrence? h = some (.arrived (.ok a)) ∧
      (s.happen h).latest = s.latest.next s.config a time) ∨
    ((∀ a, s.occurrence? h ≠ some (.arrived (.ok a))) ∧ (s.happen h).latest = s.latest) := by
  have he := (happen_spec hs h).2
  generalize s.occurrence? h = o at he
  cases he with
  | quiet state latest latch => exact Or.inr ⟨by simp, latest⟩
  | began idle state latest latch => exact Or.inr ⟨by simp, latest⟩
  | failed e polling state latest latch => exact Or.inr ⟨by simp, latest⟩
  | progressed a time polling terminal state latest latch => exact Or.inl ⟨a, time, rfl, latest⟩
  | reached a time polling terminal state latest latch => exact Or.inl ⟨a, time, rfl, latest⟩
  | stopped reason live state latest latch => exact Or.inr ⟨by simp, latest⟩

/-- Only a record counts as one. -/
theorem record?_of_other {o : Option Occurrence} (h : ∀ a, o ≠ some (.arrived (.ok a))) :
    (o.bind Occurrence.result?).bind FetchResult.record? = none := by
  rcases o with _ | _ | ⟨_ | a⟩ | _
  · rfl
  · rfl
  · rfl
  · exact absurd rfl (h a)
  · rfl

theorem happen_shows {s : Session} {records : List Application} (hs : s.Sound)
    (hshows : s.latest.Shows s.config records) (h : Happening) :
    (s.happen h).latest.Shows s.config (records ++
      (((s.occurrence? h).bind Occurrence.result?).bind FetchResult.record?).toList) := by
  rcases happen_latest hs h with ⟨a, time, ho, hlatest⟩ | ⟨hother, hlatest⟩
  · rw [ho, hlatest]
    exact hshows.next a time
  · rw [record?_of_other hother, hlatest, Option.toList_none, List.append_nil]
    exact hshows

/-- After any run, the snapshot shows the records of that run. -/
theorem play_shows {s : Session} (hs : s.Sound) (hfresh : s.latest = {}) (hs' : List Happening) :
    (s.play hs').latest.Shows s.config (s.records hs') := by
  induction hs' using List.reverseRecOn with
  | nil =>
    rw [play_nil, hfresh]
    exact Snapshot.shows_nothing s.config
  | append_singleton hs' h ih =>
    have hconfig := s.play_config hs'
    rw [play_snoc, records_snoc, ← hconfig]
    rw [← hconfig] at ih
    exact happen_shows (play_sound hs hs') ih h

/-! ## The law -/

/-- The snapshot is a function of the records that arrived before the session was
over. Its number counts them; without any it is the empty one; otherwise it holds
the last record as it came, with the string that stands in it where the
configuration looks for the state, and with the level of that state. Nothing but a move
of the loop that brings one more record changes it: a failed fetch, a stop, the end of
the session and a wait leave it as it was. Results come from fetches that ended, one
from each, if the source does nothing but answer. -/
theorem snapshot_tells_of_the_records_alone {config : Config}
    (hvalid : config.validate = .ok config) (id appId : String) (source : Playback)
    (navigator : Navigator) (sink : SinkKind) (timeText : Nat → String) :
    ∃ s₀, Session.start id appId config source navigator sink timeText = .ok s₀ ∧
      ∀ hs : List Happening,
        (s₀.play hs).latest.sequence = (s₀.records hs).length ∧
        (s₀.records hs = [] → (s₀.play hs).latest = {}) ∧
        (∀ a, (s₀.records hs).getLast? = some a →
          (s₀.play hs).latest.application = some a ∧
          (∀ text, (s₀.play hs).latest.state = some text ↔
            ∃ members, a.extra.find? config.metadataKey = some (.object members) ∧
              Json.Members.find? members config.stateField = some (.string text)) ∧
          (s₀.play hs).latest.level = (s₀.play hs).latest.state.bind config.stateLevel) ∧
        (∀ h, (s₀.play (hs ++ [h])).latest = (s₀.play hs).latest ∨
          h = .move ∧ ∃ a, s₀.records (hs ++ [h]) = s₀.records hs ++ [a]) ∧
        (source.incidents = [] →
          (s₀.play hs).source.completed = source.completed + (s₀.results hs).length) := by
  obtain ⟨s₀, hstart, hs₀⟩ := exists_started hvalid id appId source navigator sink timeText
  have hsound := hs₀.toSound
  refine ⟨s₀, hstart, fun hs => ?_⟩
  have hshows := play_shows hsound hs₀.latest hs
  rw [hs₀.config_eq] at hshows
  refine ⟨hshows.sequence, hshows.empty, fun a ha => ⟨?_, fun text => ?_, hshows.level⟩, ?_, ?_⟩
  · rw [hshows.application, ha]
  · rw [hshows.state, ha, Option.bind_some]
    exact a.state_eq_some config text
  · intro h
    rw [play_snoc, records_snoc]
    rcases happen_latest (play_sound hsound hs) h with ⟨a, time, ho, -⟩ | ⟨-, hlatest⟩
    · refine Or.inr ⟨move_of_occurrence ho (by simp), a, ?_⟩
      rw [ho]
      rfl
    · exact Or.inl hlatest
  · intro hcalm
    rw [← hs₀.source_eq] at hcalm ⊢
    exact congrArg Prod.fst (each_fetch_that_ends_brings_a_result hsound hcalm hs)

/-- A failed fetch leaves the empty snapshot; the record after it is the first. -/
theorem snapshot_tells_of_one_record :
    ∃ s₀, Session.start "s1" "a1" Config.standard
        { script := [.error (.transport "u" "down"),
          .ok (.reporting "a1" "environment_vars" "finished")] } (.recording [])
        .discarding (fun _ => "") = .ok s₀ ∧
      (s₀.play [.move, .move]).latest = {} ∧
      (s₀.play [.move, .move, .move, .move]).latest.sequence = 1 ∧
      (s₀.play [.move, .move, .move, .move]).latest.state = some "finished" := by
  obtain ⟨s₀, hstart, hlaw⟩ := snapshot_tells_of_the_records_alone
    Config.standard_validate "s1" "a1"
    { script := [.error (.transport "u" "down"),
      .ok (.reporting "a1" "environment_vars" "finished")] } (.recording []) .discarding (fun _ => "")
  have hs₀ := hstart
  rw [start_of_validate Config.standard_validate] at hs₀
  have hnone : s₀.records [.move, .move] = [] := by
    cases hs₀
    rfl
  have hone : s₀.records [.move, .move, .move, .move] =
      [.reporting "a1" "environment_vars" "finished"] := by
    cases hs₀
    rfl
  obtain ⟨-, hempty, -⟩ := hlaw [.move, .move]
  obtain ⟨hsequence, -, hlast, -⟩ := hlaw [.move, .move, .move, .move]
  refine ⟨s₀, hstart, hempty hnone, by rw [hsequence, hone]; rfl, ?_⟩
  obtain ⟨-, hstate, -⟩ := hlast _ (by rw [hone]; rfl)
  exact (hstate "finished").mpr ⟨_, rfl, rfl⟩

end Session

end Provisioning
