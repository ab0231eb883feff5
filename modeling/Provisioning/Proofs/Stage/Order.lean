-- The order of a stage table: which stage a name finds, and how its ordinal stands
-- to those before and after it.
import Provisioning.Stage.Table

namespace Provisioning.StageTable

/-! ## Looking up a name -/

/-- Names stand once, so the name of a stage finds that stage. -/
theorem get?_getElem (t : StageTable) {i : Nat} (hi : i < t.stages.length) :
    t.get? t.stages[i].name = some t.stages[i] := by
  unfold get?
  rw [List.find?_eq_some_iff_getElem]
  refine ⟨by simp, i, hi, rfl, ?_⟩
  intro j hji
  have hnodup := t.wellFormed.names
  rw [List.nodup_iff_pairwise_ne, List.pairwise_map, List.pairwise_iff_getElem] at hnodup
  simpa using hnodup j i (by omega) hi hji

theorem levelOf_getElem (t : StageTable) {i : Nat} (hi : i < t.stages.length) :
    t.levelOf t.stages[i].name = some t.stages[i].ordinal := by
  rw [levelOf, get?_getElem t hi, Option.map_some]

theorem get?_eq_none_iff (t : StageTable) (name : String) :
    t.get? name = none ↔ name ∉ t.stages.map Stage.name := by
  simp only [get?, List.find?_eq_none, beq_iff_eq, List.mem_map, not_exists, not_and]

theorem levelOf_eq_none_iff (t : StageTable) (name : String) :
    t.levelOf name = none ↔ name ∉ t.stages.map Stage.name := by
  rw [levelOf, Option.map_eq_none_iff, get?_eq_none_iff]

/-- The level of a state is the ordinal of the stage with that name. -/
theorem levelOf_eq_some_iff (t : StageTable) {state : String} {level : Nat} :
    t.levelOf state = some level ↔ ⟨state, level⟩ ∈ t.stages := by
  unfold levelOf
  rw [Option.map_eq_some_iff]
  constructor
  · rintro ⟨s, hs, rfl⟩
    have hname : s.name = state := by simpa using List.find?_some hs
    rw [← hname]
    exact List.mem_of_find?_eq_some hs
  · intro hmem
    obtain ⟨i, hi, hstage⟩ := List.getElem_of_mem hmem
    refine ⟨⟨state, level⟩, ?_, rfl⟩
    have hget := t.get?_getElem hi
    rwa [hstage] at hget

/-! ## Ordinals -/

theorem ordinal_lt (t : StageTable) {i j : Nat} (hij : i < j) (hj : j < t.stages.length) :
    t.stages[i].ordinal < t.stages[j].ordinal := by
  have hinc := t.wellFormed.increasing
  rw [List.pairwise_map, List.pairwise_iff_getElem] at hinc
  exact hinc i j (by omega) hj hij

theorem length_pos (t : StageTable) : 0 < t.stages.length :=
  List.length_pos_iff.mpr t.wellFormed.nonempty

theorem last_eq_getElem (t : StageTable) (h : t.stages.length - 1 < t.stages.length) :
    t.last = t.stages[t.stages.length - 1] := by
  unfold last
  rw [List.getLast_eq_getElem]

theorem ordinal_le_last (t : StageTable) {i : Nat} (hi : i < t.stages.length) :
    t.stages[i].ordinal ≤ t.last.ordinal := by
  rw [t.last_eq_getElem (by omega)]
  by_cases h : i = t.stages.length - 1
  · simp only [h]
    omega
  · have := t.ordinal_lt (show i < t.stages.length - 1 by omega) (by omega)
    omega

theorem le_last_of_mem (t : StageTable) {s : Stage} (hs : s ∈ t.stages) :
    s.ordinal ≤ t.last.ordinal := by
  obtain ⟨i, hi, rfl⟩ := List.getElem_of_mem hs
  exact t.ordinal_le_last hi

/-- Ordinals stand once, like names. -/
theorem eq_of_ordinal_eq (t : StageTable) {s r : Stage} (hs : s ∈ t.stages) (hr : r ∈ t.stages)
    (h : s.ordinal = r.ordinal) : s = r := by
  obtain ⟨i, hi, rfl⟩ := List.getElem_of_mem hs
  obtain ⟨j, hj, rfl⟩ := List.getElem_of_mem hr
  rcases Nat.lt_trichotomy i j with hlt | rfl | hgt
  · have := t.ordinal_lt hlt hj
    omega
  · rfl
  · have := t.ordinal_lt hgt hi
    omega

theorem last_lt_reserved (t : StageTable) : t.last.ordinal < reservedOrdinal :=
  t.wellFormed.unreserved _ (List.getLast_mem _)

end Provisioning.StageTable
