-- The classes of a progress listing, row by row: completed up to the current stage,
-- pending after it. A higher level never takes a row back.
import Mathlib.Data.List.Forall2
import Provisioning.Config.Basic
import Provisioning.Proofs.Stage.Order
import Provisioning.Stage.Classification

namespace Provisioning

/-! ## One row -/

namespace Classification

/-- How far a stage has come. -/
def rank : Classification → Nat
  | pending => 0
  | current => 1
  | completed => 2

theorem ofOrdinal_of_lt {ordinal level : Nat} (h : ordinal < level) :
    ofOrdinal ordinal (some level) = completed := by
  unfold ofOrdinal
  simp only [if_neg (Nat.ne_of_lt h), if_pos h]

theorem ofOrdinal_self (level : Nat) : ofOrdinal level (some level) = current := by
  simp [ofOrdinal]

theorem ofOrdinal_of_gt {ordinal level : Nat} (h : level < ordinal) :
    ofOrdinal ordinal (some level) = pending := by
  unfold ofOrdinal
  simp only [if_neg (Nat.ne_of_gt h), if_neg (Nat.lt_asymm h)]

theorem ofOrdinal_ne_pending {ordinal level : Nat} (h : ordinal ≤ level) :
    ofOrdinal ordinal (some level) ≠ pending := by
  rcases Nat.lt_or_eq_of_le h with hlt | rfl
  · simp [ofOrdinal_of_lt hlt]
  · simp [ofOrdinal_self]

/-- A higher level never takes a stage back, and any level is higher than none. -/
theorem rank_mono (ordinal : Nat) {a b : Option Nat} (h : a ≤ b) :
    (ofOrdinal ordinal a).rank ≤ (ofOrdinal ordinal b).rank := by
  rcases a with _ | a
  · exact Nat.zero_le _
  · rcases b with _ | b
    · cases h
    · have hab : a ≤ b := by simpa using h
      rcases Nat.lt_trichotomy ordinal a with hlt | rfl | hgt
      · have hsame : ofOrdinal ordinal (some a) = ofOrdinal ordinal (some b) := by
          rw [ofOrdinal_of_lt hlt, ofOrdinal_of_lt (Nat.lt_of_lt_of_le hlt hab)]
        exact Nat.le_of_eq (congrArg rank hsame)
      · rcases Nat.lt_or_eq_of_le hab with hlt | rfl
        · rw [ofOrdinal_self, ofOrdinal_of_lt hlt]
          decide
        · exact Nat.le_refl _
      · rw [ofOrdinal_of_gt hgt]
        exact Nat.zero_le _

end Classification

/-! ## All rows -/

namespace StageTable

/-- The classes of all stages at a level, in order. -/
def classes (t : StageTable) (level : Option Nat) : List Classification :=
  (t.progress level).map StageRow.classification

theorem classes_eq_map (t : StageTable) (level : Option Nat) :
    t.classes level = t.stages.map fun s => .ofOrdinal s.ordinal level := by
  simp [classes, progress]

theorem progress_names (t : StageTable) (level : Option Nat) :
    (t.progress level).map StageRow.name = t.stages.map Stage.name := by
  simp [progress]

/-- At the level of a stage, those before it are completed and those after it pending. -/
theorem classes_at (t : StageTable) {i : Nat} (hi : i < t.stages.length) :
    t.classes (some t.stages[i].ordinal) =
      List.replicate i .completed ++ .current ::
        List.replicate (t.size - (i + 1)) .pending := by
  rw [classes_eq_map]
  apply List.ext_getElem
  · simp only [List.length_map, List.length_append, List.length_replicate, List.length_cons, size]
    omega
  · intro j hj _
    rw [List.length_map] at hj
    rw [List.getElem_map]
    rcases Nat.lt_trichotomy j i with hlt | rfl | hgt
    · rw [Classification.ofOrdinal_of_lt (t.ordinal_lt hlt hi),
        List.getElem_append_left (by simpa using hlt), List.getElem_replicate]
    · rw [Classification.ofOrdinal_self, List.getElem_append_right (by simp)]
      simp
    · rw [Classification.ofOrdinal_of_gt (t.ordinal_lt hgt hj),
        List.getElem_append_right (by simpa using Nat.le_of_lt hgt), List.getElem_cons]
      have hne : j - i ≠ 0 := by omega
      simp [hne]

/-- Past the last stage, everything is completed. -/
theorem classes_past (t : StageTable) {level : Nat} (h : t.last.ordinal < level) :
    t.classes (some level) = List.replicate t.size .completed := by
  rw [classes_eq_map, List.eq_replicate_iff]
  refine ⟨by simp [size], ?_⟩
  intro c hc
  obtain ⟨s, hs, rfl⟩ := List.mem_map.mp hc
  obtain ⟨i, hi, rfl⟩ := List.getElem_of_mem hs
  exact Classification.ofOrdinal_of_lt (Nat.lt_of_le_of_lt (t.ordinal_le_last hi) h)

theorem classes_none (t : StageTable) : t.classes none = List.replicate t.size .pending := by
  rw [classes_eq_map, List.eq_replicate_iff]
  refine ⟨by simp [size], ?_⟩
  intro c hc
  obtain ⟨s, -, rfl⟩ := List.mem_map.mp hc
  rfl

/-- From one level to a higher one, each row keeps its stage and goes forward or stays. -/
theorem progress_forward (t : StageTable) {a b : Option Nat} (h : a ≤ b) :
    List.Forall₂ (fun r r' => r'.name = r.name ∧
      r.classification.rank ≤ r'.classification.rank) (t.progress a) (t.progress b) := by
  unfold progress
  rw [List.forall₂_map_left_iff, List.forall₂_map_right_iff, List.forall₂_same]
  intro s _
  exact ⟨rfl, Classification.rank_mono s.ordinal h⟩

theorem no_pending_of_last_le (t : StageTable) {level : Nat} (h : t.last.ordinal ≤ level) :
    ∀ row ∈ t.progress (some level), row.classification ≠ .pending := by
  intro row hrow
  obtain ⟨s, hs, rfl⟩ := List.mem_map.mp hrow
  obtain ⟨i, hi, rfl⟩ := List.getElem_of_mem hs
  exact Classification.ofOrdinal_ne_pending (Nat.le_trans (t.ordinal_le_last hi) h)

end StageTable

/-! ## The level of a state -/

namespace Config

theorem stateLevel_getElem (c : Config) {i : Nat} (hi : i < c.stages.stages.length) :
    c.stateLevel c.stages.stages[i].name = some c.stages.stages[i].ordinal := by
  simp only [stateLevel, StageTable.levelOf_getElem c.stages hi]

theorem stateLevel_of_outside (c : Config) {state : String}
    (h : state ∉ c.stages.stages.map Stage.name) :
    c.stateLevel state = if c.isTerminal state then some (c.stages.last.ordinal + 1) else none := by
  simp only [stateLevel, (c.stages.levelOf_eq_none_iff state).mpr h]

/-- One past the last stage is still a 32-bit number, so no level is lost. -/
theorem stateLevel_le_reserved (c : Config) {state : String} {level : Nat}
    (h : c.stateLevel state = some level) : level ≤ reservedOrdinal := by
  have hlast := c.stages.last_lt_reserved
  by_cases hmem : state ∈ c.stages.stages.map Stage.name
  · obtain ⟨s, hs, rfl⟩ := List.mem_map.mp hmem
    obtain ⟨i, hi, rfl⟩ := List.getElem_of_mem hs
    rw [c.stateLevel_getElem hi] at h
    cases h
    have := c.stages.ordinal_le_last hi
    omega
  · rw [c.stateLevel_of_outside hmem] at h
    split at h
    · cases h
      omega
    · cases h

/-- The classes of the listing for a state, by where the state stands. -/
theorem classes_outside (c : Config) {state : String}
    (h : state ∉ c.stages.stages.map Stage.name) :
    c.stages.classes (c.stateLevel state) =
      List.replicate c.stages.size (if c.isTerminal state then .completed else .pending) := by
  rw [c.stateLevel_of_outside h]
  split
  · exact c.stages.classes_past (Nat.lt_succ_self _)
  · exact c.stages.classes_none

/-- In a valid configuration, a marker that is a stage is the last one. -/
theorem marker_name {c : Config} (hvalid : c.fault? = none) {marker : String}
    (hmarker : c.terminalMarker = some marker) (hmem : marker ∈ c.stages.stages.map Stage.name) :
    c.stages.last.name = marker := by
  simp only [fault?, Option.or_eq_none_iff] at hvalid
  have hfault := hvalid.2
  simp only [markerFault?, hmarker] at hfault
  split at hfault
  · cases hfault
  · have hsome : (c.stages.get? marker).isSome = true := by
      rw [Option.isSome_iff_ne_none, ne_eq, c.stages.get?_eq_none_iff]
      exact fun hnot => hnot hmem
    by_contra hne
    rw [if_pos ⟨hsome, hne⟩] at hfault
    cases hfault

/-- The level of the terminal marker is not below the last stage. -/
theorem last_le_of_terminal {c : Config} (hvalid : c.fault? = none) {state : String}
    (hterminal : c.isTerminal state = true) :
    ∃ level, c.stateLevel state = some level ∧ c.stages.last.ordinal ≤ level := by
  have hmarker : c.terminalMarker = some state := by simpa [isTerminal] using hterminal
  by_cases hmem : state ∈ c.stages.stages.map Stage.name
  · have hlast : c.stages.stages.length - 1 < c.stages.stages.length :=
      Nat.sub_lt c.stages.length_pos Nat.one_pos
    have hlevel := c.stateLevel_getElem hlast
    rw [← c.stages.last_eq_getElem hlast, marker_name hvalid hmarker hmem] at hlevel
    exact ⟨_, hlevel, Nat.le_refl _⟩
  · rw [c.stateLevel_of_outside hmem, if_pos hterminal]
    exact ⟨_, rfl, Nat.le_succ _⟩

end Config

end Provisioning
