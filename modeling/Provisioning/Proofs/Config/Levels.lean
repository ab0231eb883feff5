-- The level of a state. Levels keep states apart and stages in order, and the terminal
-- marker has the highest level: its own if it is no stage, and that of the last stage if
-- it is one.
import Mathlib.Algebra.Group.Nat.Defs
import Provisioning.Config.Basic
import Provisioning.Proofs.Stage.Listing

namespace Provisioning.Config

variable {c : Config}

/-! ## Where a level comes from -/

/-- A state has the level of its stage, or the one past the last stage if it is no stage
but the terminal marker. -/
theorem stateLevel_eq_some_iff {state : String} {level : Nat} :
    c.stateLevel state = some level ↔
      ⟨state, level⟩ ∈ c.stages.stages ∨
        state ∉ c.stages.stages.map Stage.name ∧ c.terminalMarker = some state ∧
          level = c.stages.last.ordinal + 1 := by
  by_cases hmem : state ∈ c.stages.stages.map Stage.name
  · obtain ⟨s, hs, rfl⟩ := List.mem_map.mp hmem
    have hlevel : c.stages.levelOf s.name = some s.ordinal := c.stages.levelOf_eq_some_iff.mpr hs
    rw [← c.stages.levelOf_eq_some_iff]
    simp only [stateLevel, hlevel, hmem, not_true_eq_false, false_and, or_false]
  · have hno : ⟨state, level⟩ ∉ c.stages.stages :=
      fun hs => hmem (List.mem_map.mpr ⟨_, hs, rfl⟩)
    rw [c.stateLevel_of_outside hmem]
    simp only [hno, hmem, not_false_eq_true, true_and, false_or, isTerminal, beq_iff_eq]
    split
    · rename_i hmarker
      simp [hmarker, eq_comm]
    · rename_i hmarker
      simp [hmarker]

/-- Stages and the terminal marker have a level, and nothing else does. -/
theorem exists_stateLevel_iff (state : String) :
    (∃ level, c.stateLevel state = some level) ↔
      state ∈ c.stages.stages.map Stage.name ∨ c.terminalMarker = some state := by
  simp only [stateLevel_eq_some_iff]
  constructor
  · rintro ⟨level, hs | ⟨-, hmarker, -⟩⟩
    · exact .inl (List.mem_map.mpr ⟨_, hs, rfl⟩)
    · exact .inr hmarker
  · intro h
    by_cases hmem : state ∈ c.stages.stages.map Stage.name
    · obtain ⟨s, hs, rfl⟩ := List.mem_map.mp hmem
      exact ⟨s.ordinal, .inl hs⟩
    · exact ⟨_, .inr ⟨hmem, h.resolve_left hmem, rfl⟩⟩

/-- No two states have the same level. -/
theorem stateLevel_injective {state other : String} {level : Nat}
    (h : c.stateLevel state = some level) (hother : c.stateLevel other = some level) :
    state = other := by
  rcases stateLevel_eq_some_iff.mp h with hs | ⟨-, hmarker, hpast⟩
  · rcases stateLevel_eq_some_iff.mp hother with hr | ⟨-, -, hpast⟩
    · exact congrArg Stage.name (c.stages.eq_of_ordinal_eq hs hr rfl)
    · have : level ≤ c.stages.last.ordinal := c.stages.le_last_of_mem hs
      omega
  · rcases stateLevel_eq_some_iff.mp hother with hr | ⟨-, hmarker', -⟩
    · have : level ≤ c.stages.last.ordinal := c.stages.le_last_of_mem hr
      omega
    · rw [hmarker] at hmarker'
      exact Option.some.inj hmarker'

/-- The levels of the stages are their ordinals. -/
theorem stateLevels_eq (c : Config) :
    (c.stages.stages.map Stage.name).map c.stateLevel =
      (c.stages.stages.map Stage.ordinal).map some := by
  rw [List.map_map, List.map_map]
  apply List.map_congr_left
  intro s hs
  exact stateLevel_eq_some_iff.mpr (.inl hs)

/-- The level of the terminal marker exceeds all stages if the marker is none of them. -/
theorem all_lt_iff_of_terminal {marker : String} {top : Nat} (h : c.stateLevel marker = some top) :
    (∀ s ∈ c.stages.stages, s.ordinal < top) ↔ marker ∉ c.stages.stages.map Stage.name := by
  rcases stateLevel_eq_some_iff.mp h with hs | ⟨houtside, -, rfl⟩
  · have hmem : marker ∈ c.stages.stages.map Stage.name := List.mem_map.mpr ⟨_, hs, rfl⟩
    simp only [hmem, not_true_eq_false, iff_false, not_forall]
    exact ⟨_, hs, Nat.lt_irrefl top⟩
  · simp only [houtside, not_false_eq_true, iff_true]
    intro s hs
    exact Nat.lt_succ_of_le (c.stages.le_last_of_mem hs)

/-! ## The law -/

/-- In a valid configuration a state has a level exactly if it is a stage or the terminal
marker, no two states have the same one, and the levels of the stages, which are their
ordinals, go up in the order of the table. The terminal marker has a level that no stage
exceeds, and it exceeds every stage exactly if the marker is none. One past the last stage
is still a 32-bit number, and so is every level. -/
theorem levels_keep_states_apart_with_the_end_on_top {config : Config}
    (hvalid : config.validate = .ok config) :
    let names := config.stages.stages.map Stage.name
    let ordinals := config.stages.stages.map Stage.ordinal
    (∀ state, (∃ level, config.stateLevel state = some level) ↔
      state ∈ names ∨ config.terminalMarker = some state) ∧
    (∀ state other level, config.stateLevel state = some level →
      config.stateLevel other = some level → state = other) ∧
    names.map config.stateLevel = ordinals.map some ∧ ordinals.Pairwise (· < ·) ∧
    (∀ marker, config.terminalMarker = some marker →
      ∃ top, config.stateLevel marker = some top ∧ (∀ n ∈ ordinals, n ≤ top) ∧
        ((∀ n ∈ ordinals, n < top) ↔ marker ∉ names)) ∧
    config.stages.last.ordinal + 1 < 2 ^ 32 ∧
    ∀ state level, config.stateLevel state = some level → level < 2 ^ 32 := by
  intro names ordinals
  have hreserved := config.stages.last_lt_reserved
  unfold reservedOrdinal UInt32.size at hreserved
  refine ⟨exists_stateLevel_iff, fun state other level => stateLevel_injective,
    config.stateLevels_eq, config.stages.wellFormed.increasing, ?_, by omega, ?_⟩
  · intro marker hmarker
    have hterminal : config.isTerminal marker = true := by simpa [isTerminal] using hmarker
    obtain ⟨top, htop, hlast⟩ := last_le_of_terminal (fault?_of_validate hvalid) hterminal
    refine ⟨top, htop, ?_, ?_⟩
    · intro n hn
      obtain ⟨s, hs, rfl⟩ := List.mem_map.mp hn
      exact Nat.le_trans (config.stages.le_last_of_mem hs) hlast
    · rw [← all_lt_iff_of_terminal htop, List.forall_mem_map]
  · intro state level hlevel
    have := config.stateLevel_le_reserved hlevel
    unfold reservedOrdinal UInt32.size at this
    omega

/-- A table with a wide gap, up to the greatest ordinal that a stage can have. -/
def wideTable : StageTable where
  stages := [⟨"start", 7⟩, ⟨"end", 2 ^ 32 - 2⟩]
  wellFormed := wellFormed_of_tableFault? rfl

/-- The level past the widest table is the greatest 32-bit number. A marker that is the last
stage has the level of that stage. -/
theorem level_past_the_widest_table :
    let outside : Config := { stages := wideTable, terminalMarker := some "done" }
    let inside : Config := { stages := wideTable, terminalMarker := some "end" }
    outside.stateLevel "done" = some (2 ^ 32 - 1) ∧
      (∀ n ∈ [7, 2 ^ 32 - 2], n < 2 ^ 32 - 1) ∧
      inside.stateLevel "end" = some (2 ^ 32 - 2) ∧ ¬ ∀ n ∈ [7, 2 ^ 32 - 2], n < 2 ^ 32 - 2 := by
  intro outside inside
  have houtside : outside.validate = .ok outside :=
    validate_eq_ok_iff.mpr ⟨by decide +kernel, rfl⟩
  have hinside : inside.validate = .ok inside := validate_eq_ok_iff.mpr ⟨by decide +kernel, rfl⟩
  obtain ⟨-, -, -, -, hpast, -⟩ := levels_keep_states_apart_with_the_end_on_top houtside
  obtain ⟨-, -, -, -, hlast, -⟩ := levels_keep_states_apart_with_the_end_on_top hinside
  obtain ⟨top, htop, -, hexceeds⟩ := hpast "done" rfl
  obtain ⟨level, hlevel, -, hreaches⟩ := hlast "end" rfl
  cases htop
  cases hlevel
  exact ⟨rfl, hexceeds.mpr (by decide), rfl, fun hall => hreaches.mp hall (by decide)⟩

end Provisioning.Config
