-- Where a table comes from: a list that was given, names that were numbered, or a list
-- in a document. However it comes, the list has passed the check as it stands.
import Provisioning.Config.Json
import Provisioning.Proofs.Outcome
import Provisioning.Proofs.Stage.Reread

namespace Provisioning

open Json

/-! ## Lists and names -/

/-- The check and the rules are the same thing. -/
theorem tableFault?_eq_none_iff {stages : List Stage} :
    tableFault? stages = none ↔ WellFormed stages :=
  ⟨wellFormed_of_tableFault?, tableFault?_of_wellFormed⟩

namespace StageTable

/-- A list becomes a table if it passes the check, and then as it stands. -/
theorem ofStages_eq_ok_iff {stages : List Stage} {t : StageTable} :
    ofStages stages = .ok t ↔ tableFault? stages = none ∧ t.stages = stages := by
  unfold ofStages
  split
  · rename_i fault hfault
    simp [hfault]
  · rename_i hnone
    rw [Except.ok.injEq]
    constructor
    · rintro rfl
      exact ⟨hnone, rfl⟩
    · rintro ⟨-, rfl⟩
      rfl

theorem numbered_names (ordinal : Nat) (names : List String) :
    (numbered ordinal names).map Stage.name = names := by
  induction names generalizing ordinal with
  | nil => rfl
  | cons name rest ih => simp [numbered, ih]

/-- The ordinals of numbered names are the numbers from the first one on. -/
theorem numbered_ordinals (ordinal : Nat) (names : List String) :
    (numbered ordinal names).map Stage.ordinal = List.range' ordinal names.length := by
  induction names generalizing ordinal with
  | nil => rfl
  | cons name rest ih => simp [numbered, ih, List.range'_succ]

theorem ordinal_of_mem_numbered {names : List String} {s : Stage} (h : s ∈ numbered 1 names) :
    1 ≤ s.ordinal ∧ s.ordinal < 1 + names.length := by
  have hmem : s.ordinal ∈ (numbered 1 names).map Stage.ordinal := List.mem_map_of_mem h
  rwa [numbered_ordinals, List.mem_range'_1] at hmem

/-- Names that are numbered make a table unless there are none, one stands twice, or there
are more than there are numbers. -/
theorem wellFormed_numbered_iff {names : List String} :
    WellFormed (numbered 1 names) ↔
      names ≠ [] ∧ names.Nodup ∧ names.length < reservedOrdinal := by
  have hordinals := numbered_ordinals 1 names
  constructor
  · intro h
    have hne : names ≠ [] := by
      rintro rfl
      exact h.nonempty rfl
    refine ⟨hne, by simpa only [numbered_names] using h.names, ?_⟩
    have hlast : names.length ∈ (numbered 1 names).map Stage.ordinal := by
      rw [hordinals, List.mem_range'_1]
      have := List.length_pos_iff.mpr hne
      omega
    obtain ⟨s, hs, hordinal⟩ := List.mem_map.mp hlast
    exact hordinal ▸ h.unreserved s hs
  · rintro ⟨hne, hnodup, hlength⟩
    exact {
      nonempty := by
        intro hnil
        apply hne
        rw [← numbered_names 1 names, hnil, List.map_nil]
      names := by rwa [numbered_names]
      increasing := by
        rw [hordinals]
        exact List.pairwise_lt_range'
      positive := fun s hs => (ordinal_of_mem_numbered hs).1
      unreserved := by
        intro s hs
        have := ordinal_of_mem_numbered hs
        omega }

/-- A table in a document is a list of stages there that passes the check. -/
theorem ofNode_eq_ok_iff {depth : Nat} {node : Node} {t : StageTable} :
    ofNode depth node = .ok t ↔
      decodeList depth Stage.ofNode node = .ok t.stages ∧ tableFault? t.stages = none := by
  simp only [ofNode, bind_eq_ok_iff]
  constructor
  · rintro ⟨stages, hread, h⟩
    split at h
    · rename_i table htable
      cases h
      obtain ⟨hpass, rfl⟩ := ofStages_eq_ok_iff.mp htable
      exact ⟨hread, hpass⟩
    · cases h
  · rintro ⟨hread, -⟩
    refine ⟨t.stages, hread, ?_⟩
    rw [ofStages_stages]
    rfl

end StageTable

end Provisioning
