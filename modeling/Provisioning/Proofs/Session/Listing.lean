-- The progress listing of a session: it is the listing of the state in its latest
-- snapshot, and no row of it is pending once the session is terminal.
import Mathlib.Algebra.Group.Nat.Defs
import Provisioning.Proofs.Session.Progress
import Provisioning.Proofs.Stage.Listing

namespace Provisioning.Session

/-! ## The snapshot of a terminal session -/

/-- Does the latest snapshot show the terminal state, if the session is terminal? -/
def Shown (s : Session) : Prop :=
  s.state = .terminal → s.latest.state.any s.config.isTerminal = true

theorem happen_shown {s : Session} (hs : s.Sound) (h : s.Shown) (x : Happening) :
    (s.happen x).Shown := by
  have hconfig : (s.happen x).config = s.config := by simp [config]
  have he := (happen_spec hs x).2
  generalize s.occurrence? x = o at he
  unfold Shown
  rw [hconfig]
  intro hterminal
  cases he with
  | quiet state latest latch =>
    rw [latest]
    exact h (state.symm.trans hterminal)
  | began idle state latest latch =>
    rw [state] at hterminal
    cases hterminal
  | failed e polling state latest latch =>
    rw [state] at hterminal
    cases hterminal
  | progressed a time polling terminal state latest latch =>
    rw [state] at hterminal
    cases hterminal
  | reached a time polling terminal state latest latch =>
    rw [latest]
    exact terminal
  | stopped reason live state latest latch =>
    rw [state] at hterminal
    cases hterminal

theorem play_shown {s : Session} (hs : s.Sound) (h : s.Shown) (hs' : List Happening) :
    (s.play hs').Shown := by
  induction hs' generalizing s with
  | nil => exact h
  | cons x hs' ih => exact ih (happen_spec hs x).1 (happen_shown hs h x)

/-- The rows are those of the state that the latest snapshot shows. -/
theorem rows_of_state {s : Session} {records : List Application}
    (h : s.latest.Shows s.config records) :
    s.rows = s.config.stages.progress (s.latest.state.bind s.config.stateLevel) := by
  rw [rows, h.level]

theorem no_pending_row {s : Session} {records : List Application}
    (hshows : s.latest.Shows s.config records) (hshown : s.Shown) (hterminal : s.state = .terminal) :
    ∀ row ∈ s.rows, row.classification ≠ .pending := by
  have hvalid : s.config.fault? = none := s.plan.isValid
  obtain ⟨state, hstate, hmarker⟩ := (Option.any_eq_true ..).mp (hshown hterminal)
  obtain ⟨level, hlevel, hlast⟩ := Config.last_le_of_terminal hvalid hmarker
  rw [rows_of_state hshows, hstate, Option.bind_some, hlevel]
  exact s.config.stages.no_pending_of_last_le hlast

/-! ## The law -/

/-- The listing for a state, row by row in the order of the table. If the state is a stage,
the stages before it are completed, it is current, and those after it are pending. Any
other state makes every row completed if it is the terminal marker, and every row
pending if it is not. The level behind it is a 32-bit number. A higher level takes no row
back. A session shows the listing of the state in its latest snapshot, without a pending
row once it is terminal. -/
theorem listing_goes_forward_with_the_level {config : Config}
    (hvalid : config.validate = .ok config) :
    (∀ state : String,
      (config.stages.progress (config.stateLevel state)).map StageRow.name =
        config.stages.stages.map Stage.name ∧
      (∀ (i : Nat) (hi : i < config.stages.stages.length), config.stages.stages[i].name = state →
        config.stages.classes (config.stateLevel state) =
          List.replicate i .completed ++ .current ::
            List.replicate (config.stages.size - (i + 1)) .pending) ∧
      (state ∉ config.stages.stages.map Stage.name →
        config.stages.classes (config.stateLevel state) =
          List.replicate config.stages.size
            (if config.terminalMarker = some state then .completed else .pending)) ∧
      ∀ level, config.stateLevel state = some level → level < 2 ^ 32) ∧
    (∀ a b : Option Nat, a ≤ b →
      List.Forall₂ (fun r r' => r'.name = r.name ∧
        r.classification.rank ≤ r'.classification.rank)
        (config.stages.progress a) (config.stages.progress b)) ∧
    ∀ (id appId : String) (source : Playback) (navigator : Navigator) (sink : SinkKind)
      (timeText : Nat → String),
      ∃ s₀, Session.start id appId config source navigator sink timeText = .ok s₀ ∧
        ∀ hs : List Happening,
          (s₀.play hs).rows =
            config.stages.progress ((s₀.play hs).latest.state.bind config.stateLevel) ∧
          ((s₀.play hs).state = .terminal →
            ∀ row ∈ (s₀.play hs).rows, row.classification ≠ .pending) := by
  refine ⟨?_, ?_, ?_⟩
  · intro state
    refine ⟨config.stages.progress_names _, ?_, ?_, ?_⟩
    · rintro i hi rfl
      rw [config.stateLevel_getElem hi, config.stages.classes_at hi]
    · intro houtside
      rw [config.classes_outside houtside]
      simp [Config.isTerminal]
    · intro level hlevel
      have := config.stateLevel_le_reserved hlevel
      unfold reservedOrdinal UInt32.size at this
      omega
  · intro a b hab
    exact config.stages.progress_forward hab
  · intro id appId source navigator sink timeText
    obtain ⟨s₀, hstart, hs₀⟩ := exists_started hvalid id appId source navigator sink timeText
    refine ⟨s₀, hstart, ?_⟩
    intro hs
    have hsound := hs₀.toSound
    have hshows := play_shows hsound hs₀.latest hs
    have hconfig := s₀.play_config hs
    have hshown : s₀.Shown := by
      intro hterminal
      rw [hs₀.idle] at hterminal
      cases hterminal
    rw [← hconfig] at hshows
    refine ⟨?_, no_pending_row hshows (play_shown hsound hshown hs)⟩
    rw [rows_of_state hshows, hconfig, hs₀.config_eq]

/-- The second stage of the standard table, and the marker that is none of its stages. -/
theorem listing_of_the_second_stage_and_of_the_end :
    Config.standard.stages.classes (Config.standard.stateLevel "uploading") =
        [.completed, .current, .pending, .pending, .pending, .pending, .pending] ∧
      Config.standard.stages.classes (Config.standard.stateLevel "finished") =
        List.replicate 7 .completed ∧
      Config.standard.stages.classes (Config.standard.stateLevel "mystery") =
        List.replicate 7 .pending := by
  obtain ⟨hlisting, -, -⟩ := listing_goes_forward_with_the_level Config.standard_validate
  obtain ⟨-, hstage, -, -⟩ := hlisting "uploading"
  obtain ⟨-, -, hmarker, -⟩ := hlisting "finished"
  obtain ⟨-, -, hother, -⟩ := hlisting "mystery"
  refine ⟨hstage 1 (by decide) (by decide), ?_, ?_⟩
  · exact hmarker (by decide)
  · exact hother (by decide)

end Provisioning.Session
