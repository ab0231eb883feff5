-- A table that is printed is read again: it passes the check that it passed before, and
-- every ordinal fits into 32 bits.
import Provisioning.Proofs.Json.Decode
import Provisioning.Stage.Json

namespace Provisioning

open Json

/-! ## The check of a table -/

theorem repeatedName?_of_nodup {seen : List String} {stages : List Stage}
    (hnodup : (stages.map Stage.name).Nodup) (hseen : ∀ s ∈ stages, s.name ∉ seen) :
    repeatedName? seen stages = none := by
  induction stages generalizing seen with
  | nil => rfl
  | cons s rest ih =>
    obtain ⟨hfirst, hrest⟩ := List.nodup_cons.mp hnodup
    unfold repeatedName?
    rw [if_neg (hseen s List.mem_cons_self)]
    apply ih hrest
    intro t ht hmem
    rcases List.mem_cons.mp hmem with heq | hmem
    · exact hfirst (List.mem_map.mpr ⟨t, ht, heq⟩)
    · exact hseen t (List.mem_cons_of_mem _ ht) hmem

theorem repeatedOrdinal?_of_increasing {earlier stages : List Stage}
    (h : ((earlier ++ stages).map Stage.ordinal).Pairwise (· < ·)) :
    repeatedOrdinal? earlier stages = none := by
  induction stages generalizing earlier with
  | nil => rfl
  | cons s rest ih =>
    have hless : ∀ t ∈ earlier, t.ordinal < s.ordinal := by
      intro t ht
      rw [List.map_append] at h
      exact (List.pairwise_append.mp h).2.2 _ (List.mem_map.mpr ⟨t, ht, rfl⟩) _ (by simp)
    have hfirst : earlier.find? (·.ordinal == s.ordinal) = none := by
      rw [List.find?_eq_none]
      intro t ht
      have := hless t ht
      simp only [beq_iff_eq]
      omega
    unfold repeatedOrdinal?
    rw [hfirst]
    exact ih (by rwa [List.append_assoc])

theorem misplaced?_of_increasing {previous : Nat} {stages : List Stage}
    (hincreasing : (stages.map Stage.ordinal).Pairwise (· < ·))
    (hbounds : ∀ s ∈ stages, previous < s.ordinal ∧ s.ordinal < reservedOrdinal) :
    misplaced? previous stages = none := by
  induction stages generalizing previous with
  | nil => rfl
  | cons s rest ih =>
    obtain ⟨hfirst, hrest⟩ := List.pairwise_cons.mp hincreasing
    obtain ⟨habove, hbelow⟩ := hbounds s List.mem_cons_self
    unfold misplaced?
    rw [if_neg (by omega), if_neg (by omega)]
    apply ih hrest
    intro t ht
    exact ⟨hfirst _ (List.mem_map.mpr ⟨t, ht, rfl⟩), (hbounds t (List.mem_cons_of_mem _ ht)).2⟩

/-- The check refuses no list that is a table. -/
theorem tableFault?_of_wellFormed {stages : List Stage} (h : WellFormed stages) :
    tableFault? stages = none := by
  unfold tableFault?
  have hordinals : repeatedOrdinal? [] stages = none := repeatedOrdinal?_of_increasing h.increasing
  rw [if_neg h.nonempty, repeatedName?_of_nodup h.names (by simp), hordinals]
  exact misplaced?_of_increasing h.increasing fun s hs => ⟨h.positive s hs, h.unreserved s hs⟩

theorem StageTable.ofStages_stages (t : StageTable) : ofStages t.stages = .ok t := by
  unfold ofStages
  split
  · rename_i fault hfault
    rw [tableFault?_of_wellFormed t.wellFormed] at hfault
    cases hfault
  · rfl

/-! ## Printed and read -/

theorem Stage.ofNode_toJson {s : Stage} (h : s.ordinal < reservedOrdinal) {depth : Nat}
    (hdepth : 1 < depth) : Stage.ofNode depth s.toJson.node = .ok s := by
  have hnumber : decodeUInt32 (Value.ofNat s.ordinal).node = .ok s.ordinal :=
    decodeUInt32_node (Nat.lt_trans h (by decide))
  have hname : StageMembers.read "name" {} (Value.string s.name).node =
      some (.ok ⟨some s.name, none⟩) := rfl
  have hordinal : StageMembers.read "ordinal" ⟨some s.name, none⟩ (Value.ofNat s.ordinal).node =
      some (.ok ⟨some s.name, some s.ordinal⟩) := by
    simp only [StageMembers.read, readField, hnumber]
    rfl
  have hmembers : readMembers StageMembers.read .closed {}
      [(.ok "name", (Value.string s.name).node), (.ok "ordinal", (Value.ofNat s.ordinal).node)] =
        .ok ⟨some s.name, some s.ordinal⟩ := by
    rw [readMembers_of_known hname, readMembers_of_known hordinal]
    rfl
  change Stage.ofNode depth (.object [(.ok "name", (Value.string s.name).node),
    (.ok "ordinal", (Value.ofNat s.ordinal).node)] .closed) = _
  unfold Stage.ofNode
  simp only [if_neg (show ¬ depth ≤ 1 by omega), hmembers]
  rfl

theorem StageTable.ofNode_toJson (t : StageTable) {depth : Nat} (hdepth : 2 < depth) :
    StageTable.ofNode depth t.toJson.node = .ok t := by
  have hstages : decodeList depth Stage.ofNode t.toJson.node = .ok t.stages :=
    decodeList_node (by omega) fun s hs =>
      Stage.ofNode_toJson (t.wellFormed.unreserved s hs) (by omega)
  unfold StageTable.ofNode
  rw [hstages]
  simp [bind, Except.bind, t.ofStages_stages, pure, Except.pure]

end Provisioning
