-- Members by name: what writing one changes, and what a list of them comes to when the
-- last of each name stands.
import Mathlib.Data.List.Induction
import Provisioning.Json.Value

namespace Provisioning.Json.Members

variable {members : Members} {name : String} {value : Value}

/-- The members stand in the order of their names, each name once. -/
def Sorted (members : Members) : Prop := members.Pairwise fun m n => m.1 < n.1

/-! ## Looking up -/

theorem find?_cons (m : String × Value) (members : Members) (name : String) :
    find? (m :: members) name = if m.1 = name then some m.2 else find? members name := by
  unfold find?
  by_cases h : m.1 = name
  · simp [h]
  · simp [h]

theorem exists_find?_of_mem {m : String × Value} (h : m ∈ members) :
    ∃ v, find? members m.1 = some v := by
  induction members with
  | nil => cases h
  | cons n members ih =>
    rw [find?_cons]
    by_cases hname : n.1 = m.1
    · exact ⟨n.2, if_pos hname⟩
    · rw [if_neg hname]
      rcases List.mem_cons.mp h with rfl | h
      · exact absurd rfl hname
      · exact ih h

/-! ## Writing -/

theorem find?_insert (members : Members) (written : String) (value : Value) (name : String) :
    find? (insert written value members) name =
      if written = name then some value else find? members name := by
  induction members with
  | nil => exact find?_cons _ _ _
  | cons m members ih =>
    unfold insert
    split
    · rename_i hsame
      simp only [find?_cons, hsame]
      by_cases h : written = name
      · simp [h]
      · simp [h]
    · split
      · exact find?_cons _ _ _
      · rename_i hne _
        simp only [find?_cons, ih]
        by_cases h : m.1 = name
        · have hother : written ≠ name := fun heq => hne (h.trans heq.symm)
          simp [h, hother]
        · simp [h]

theorem mem_insert {m : String × Value} (h : m ∈ insert name value members) :
    m = (name, value) ∨ m ∈ members := by
  induction members with
  | nil => exact .inl (List.mem_singleton.mp h)
  | cons n members ih =>
    unfold insert at h
    split at h
    · exact (List.mem_cons.mp h).imp_right (List.mem_cons_of_mem n)
    · split at h
      · exact List.mem_cons.mp h
      · rcases List.mem_cons.mp h with rfl | h
        · exact .inr List.mem_cons_self
        · exact (ih h).imp_right (List.mem_cons_of_mem n)

theorem Sorted.insert (h : Sorted members) : Sorted (insert name value members) := by
  induction members with
  | nil => exact List.pairwise_singleton _ _
  | cons m members ih =>
    obtain ⟨hfirst, hrest⟩ := List.pairwise_cons.mp h
    unfold Members.insert
    split
    · rename_i hsame
      exact List.pairwise_cons.mpr ⟨fun n hn => hsame ▸ hfirst n hn, hrest⟩
    · split
      · rename_i hless
        refine List.pairwise_cons.mpr ⟨fun n hn => ?_, h⟩
        rcases List.mem_cons.mp hn with rfl | hn
        · exact hless
        · exact String.lt_trans hless (hfirst n hn)
      · rename_i hne hless
        refine List.pairwise_cons.mpr ⟨fun n hn => ?_, ih hrest⟩
        rcases mem_insert hn with rfl | hn
        · exact Std.lt_of_le_of_ne (String.not_lt.mp hless) hne
        · exact hfirst n hn

/-- A name past all others is written at the end. -/
theorem insert_of_last (h : ∀ m ∈ members, m.1 < name) :
    insert name value members = members ++ [(name, value)] := by
  induction members with
  | nil => rfl
  | cons m members ih =>
    have hless := h m List.mem_cons_self
    have hne : m.1 ≠ name := by
      intro heq
      exact String.lt_irrefl _ (heq ▸ hless)
    unfold insert
    rw [if_neg hne, if_neg (String.lt_asymm hless), ih fun n hn => h n (List.mem_cons_of_mem _ hn)]
    rfl

/-! ## All of a list -/

theorem ofList_snoc (members : Members) (m : String × Value) :
    ofList (members ++ [m]) = insert m.1 m.2 (ofList members) := by
  simp [ofList]

theorem ofList_sorted (members : Members) : Sorted (ofList members) := by
  induction members using List.reverseRecOn with
  | nil => exact List.Pairwise.nil
  | append_singleton members m ih =>
    rw [ofList_snoc]
    exact ih.insert

theorem mem_ofList {m : String × Value} (h : m ∈ ofList members) : m ∈ members := by
  induction members using List.reverseRecOn with
  | nil => exact h
  | append_singleton members n ih =>
    rw [ofList_snoc] at h
    rcases mem_insert h with rfl | h
    · exact List.mem_append_right _ List.mem_cons_self
    · exact List.mem_append_left _ (ih h)

/-- Members in order stay as they are. -/
theorem ofList_of_sorted (h : Sorted members) : ofList members = members := by
  induction members using List.reverseRecOn with
  | nil => rfl
  | append_singleton members m ih =>
    obtain ⟨hrest, -, hlast⟩ := List.pairwise_append.mp h
    rw [ofList_snoc, ih hrest, insert_of_last fun n hn => hlast n hn m List.mem_cons_self]

/-- The last member of a name stands. -/
theorem find?_ofList (members : Members) (name : String) :
    find? (ofList members) name =
      ((members.filter fun m => m.1 = name).map Prod.snd).getLast? := by
  induction members using List.reverseRecOn with
  | nil => rfl
  | append_singleton members m ih =>
    rw [ofList_snoc, find?_insert, ih, List.filter_append, List.map_append]
    by_cases h : m.1 = name
    · simp [h]
    · simp [h]

end Provisioning.Json.Members
