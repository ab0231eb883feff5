-- The table of a list of names. Its stages are numbered from 1 in the order of the names, so
-- a list can go wrong in its names alone: there are none, or one stands twice.
import Provisioning.Proofs.Stage.Faults
import Provisioning.Proofs.Stage.Listing

namespace Provisioning

/-! ## A name that stands twice -/

/-- The name that the search finds is the first one that was seen before, in `seen` or earlier
in the list. -/
theorem repeatedName?_eq_some_iff_of_seen {seen : List String} {stages : List Stage}
    {name : String} :
    repeatedName? seen stages = some name ↔
      ∃ before after, stages.map Stage.name = before ++ name :: after ∧
        (name ∈ seen ∨ name ∈ before) ∧ before.Nodup ∧ ∀ n ∈ before, n ∉ seen := by
  induction stages generalizing seen with
  | nil => simp [repeatedName?]
  | cons s rest ih =>
    unfold repeatedName?
    by_cases hs : s.name ∈ seen
    · rw [if_pos hs, Option.some.injEq]
      constructor
      · rintro rfl
        exact ⟨[], rest.map Stage.name, rfl, .inl hs, List.nodup_nil, nofun⟩
      · rintro ⟨before, after, hsplit, -, -, hnew⟩
        cases before with
        | nil => exact (List.cons.inj hsplit).1
        | cons first before =>
          apply absurd hs
          rw [show s.name = first from (List.cons.inj hsplit).1]
          exact hnew first List.mem_cons_self
    · rw [if_neg hs, ih]
      constructor
      · rintro ⟨before, after, hsplit, hmem, hnodup, hnew⟩
        refine ⟨s.name :: before, after, congrArg (s.name :: ·) hsplit, ?_, ?_, ?_⟩
        · simp only [List.mem_cons] at hmem ⊢
          tauto
        · refine List.nodup_cons.mpr ⟨?_, hnodup⟩
          intro hbefore
          exact hnew _ hbefore List.mem_cons_self
        · intro n hn
          rcases List.mem_cons.mp hn with rfl | hn
          · exact hs
          · exact fun hseen => hnew n hn (List.mem_cons_of_mem _ hseen)
      · rintro ⟨before, after, hsplit, hmem, hnodup, hnew⟩
        cases before with
        | nil =>
          have hname : s.name = name := (List.cons.inj hsplit).1
          rcases hmem with hseen | hnone
          · exact absurd (hname ▸ hseen) hs
          · cases hnone
        | cons first before =>
          obtain ⟨hfirst, hrest⟩ := List.cons.inj hsplit
          obtain ⟨hother, hnodup⟩ := List.nodup_cons.mp hnodup
          refine ⟨before, after, hrest, ?_, hnodup, ?_⟩
          · simp only [List.mem_cons, hfirst] at hmem ⊢
            tauto
          · intro n hn hseen
            rcases List.mem_cons.mp hseen with rfl | hseen
            · exact hother (hfirst ▸ hn)
            · exact hnew n (List.mem_cons_of_mem _ hn) hseen

/-- A name stands twice, and no name does so before its second place. -/
def FirstRepeat (names : List String) (name : String) : Prop :=
  ∃ before after, names = before ++ name :: after ∧ name ∈ before ∧ before.Nodup

theorem repeatedName?_eq_some_iff_firstRepeat {stages : List Stage} {name : String} :
    repeatedName? [] stages = some name ↔ FirstRepeat (stages.map Stage.name) name := by
  rw [repeatedName?_eq_some_iff_of_seen]
  simp [FirstRepeat]

namespace StageTable

/-! ## The check of numbered names -/

/-- Numbers that count up from 1 are never at fault. -/
theorem tableFault?_numbered {names : List String} (h : names.length < reservedOrdinal) :
    tableFault? (numbered 1 names) =
      if names = [] then some .empty
      else (repeatedName? [] (numbered 1 names)).map .duplicateName := by
  have hincreasing : ((numbered 1 names).map Stage.ordinal).Pairwise (· < ·) := by
    rw [numbered_ordinals]
    exact List.pairwise_lt_range'
  have hdistinct : repeatedOrdinal? [] (numbered 1 names) = none :=
    repeatedOrdinal?_of_increasing hincreasing
  have hplaced : misplaced? 0 (numbered 1 names) = none := by
    apply misplaced?_of_increasing hincreasing
    intro s hs
    have := ordinal_of_mem_numbered hs
    omega
  have hnil : numbered 1 names = [] ↔ names = [] := by
    rw [← List.map_eq_nil_iff (f := Stage.name), numbered_names]
  unfold tableFault?
  simp only [hnil, hdistinct, hplaced]
  split
  · rfl
  · cases repeatedName? [] (numbered 1 names) <;> rfl

theorem ofNames_eq_error_iff {names : List String} (h : names.length < reservedOrdinal)
    {fault : TableFault} :
    ofNames names = .error fault ↔
      names = [] ∧ fault = .empty ∨ ∃ name, FirstRepeat names name ∧ fault = .duplicateName name := by
  rw [ofNames, ofStages_eq_error_iff, tableFault?_numbered h]
  by_cases hnil : names = []
  · subst hnil
    simp [FirstRepeat, eq_comm]
  · rw [if_neg hnil, Option.map_eq_some_iff]
    simp only [repeatedName?_eq_some_iff_firstRepeat, numbered_names, hnil, false_and, false_or]
    constructor
    · rintro ⟨name, hname, rfl⟩
      exact ⟨name, hname, rfl⟩
    · rintro ⟨name, hname, rfl⟩
      exact ⟨name, hname, rfl⟩

theorem exists_ofNames_iff {names : List String} (h : names.length < reservedOrdinal) :
    (∃ t, ofNames names = .ok t) ↔ names ≠ [] ∧ names.Nodup := by
  have hwell : tableFault? (numbered 1 names) = none ↔ names ≠ [] ∧ names.Nodup := by
    rw [tableFault?_eq_none_iff, wellFormed_numbered_iff]
    tauto
  rw [← hwell]
  constructor
  · rintro ⟨t, ht⟩
    exact (ofStages_eq_ok_iff.mp ht).1
  · intro hpass
    exact ⟨⟨numbered 1 names, wellFormed_of_tableFault? hpass⟩,
      ofStages_eq_ok_iff.mpr ⟨hpass, rfl⟩⟩

/-! ## The table -/

theorem length_numbered (ordinal : Nat) (names : List String) :
    (numbered ordinal names).length = names.length := by
  rw [← List.length_map (f := Stage.name), numbered_names]

theorem getElem_numbered {ordinal : Nat} {names : List String} {i : Nat} (hi : i < names.length) :
    (numbered ordinal names)[i]? = some ⟨names[i], ordinal + i⟩ := by
  induction names generalizing ordinal i with
  | nil => simp at hi
  | cons name rest ih =>
    cases i with
    | zero => rfl
    | succ i =>
      have hi : i < rest.length := by simpa using hi
      have hordinal : ordinal + (i + 1) = ordinal + 1 + i := by omega
      rw [hordinal]
      exact ih hi

/-- What a table of names says: the place of each name, and how names stand to each other. -/
structure Numbers (t : StageTable) (names : List String) : Prop where
  level : ∀ i (hi : i < names.length), t.levelOf names[i] = some (i + 1)
  unknown : ∀ s, s ∉ names → t.levelOf s = none
  last : names.getLast? = some t.last.name ∧ t.last.ordinal = names.length
  before : ∀ i j (hij : i < j) (hj : j < names.length),
    t.classify names[i] (t.levelOf names[j]) = some .completed
  at_itself : ∀ i (hi : i < names.length),
    t.classify names[i] (t.levelOf names[i]) = some .current
  after : ∀ i j (hji : j < i) (hi : i < names.length),
    t.classify names[i] (t.levelOf names[j]) = some .pending
  of_unknown : ∀ n ∈ names, ∀ s, s ∉ names → t.classify n (t.levelOf s) = some .pending

section
variable {t : StageTable} {names : List String} (h : t.stages = numbered 1 names)
include h

theorem get?_of_numbered {i : Nat} (hi : i < names.length) :
    t.get? names[i] = some ⟨names[i], i + 1⟩ := by
  have hlength : i < t.stages.length := by
    rw [h, length_numbered]
    exact hi
  have hstage : t.stages[i] = ⟨names[i], i + 1⟩ := by
    apply Option.some.inj
    rw [← List.getElem?_eq_getElem hlength, h, getElem_numbered hi, Nat.add_comm]
  have hget := t.get?_getElem hlength
  rwa [hstage] at hget

theorem levelOf_of_numbered {i : Nat} (hi : i < names.length) :
    t.levelOf names[i] = some (i + 1) := by
  rw [levelOf, get?_of_numbered h hi, Option.map_some]

theorem levelOf_of_notMem {s : String} (hs : s ∉ names) : t.levelOf s = none := by
  rwa [levelOf_eq_none_iff, h, numbered_names]

theorem classify_of_numbered {i : Nat} (hi : i < names.length) (level : Option Nat) :
    t.classify names[i] level = some (.ofOrdinal (i + 1) level) := by
  rw [classify, get?_of_numbered h hi, Option.map_some]

theorem last_of_numbered :
    names.getLast? = some t.last.name ∧ t.last.ordinal = names.length := by
  have hlast : t.stages.getLast? = some t.last := List.getLast?_eq_some_getLast t.wellFormed.nonempty
  constructor
  · have hname := congrArg (Option.map Stage.name) hlast
    rwa [← List.getLast?_map, h, numbered_names] at hname
  · have hordinal := congrArg (Option.map Stage.ordinal) hlast
    rw [← List.getLast?_map, h, numbered_ordinals, List.getLast?_range'] at hordinal
    have hpos := t.length_pos
    rw [h, length_numbered] at hpos
    rw [if_neg (by omega)] at hordinal
    have := Option.some.inj hordinal
    omega

theorem numbers_of_numbered : t.Numbers names where
  level i hi := levelOf_of_numbered h hi
  unknown s hs := levelOf_of_notMem h hs
  last := last_of_numbered h
  before i j hij hj := by
    rw [levelOf_of_numbered h hj, classify_of_numbered h (by omega),
      Classification.ofOrdinal_of_lt (by omega)]
  at_itself i hi := by
    rw [levelOf_of_numbered h hi, classify_of_numbered h hi, Classification.ofOrdinal_self]
  after i j hji hi := by
    rw [levelOf_of_numbered h (by omega), classify_of_numbered h hi,
      Classification.ofOrdinal_of_gt (by omega)]
  of_unknown n hn s hs := by
    obtain ⟨i, hi, rfl⟩ := List.getElem_of_mem hn
    rw [levelOf_of_notMem h hs, classify_of_numbered h hi]
    rfl

end

/-- Names, fewer than the greatest 32-bit number, make a table exactly if there are some and
none stands twice. The table numbers them from 1 in their order. A list that makes none is
refused because it is empty or for the first name that stands twice, and never for the numbers. -/
theorem names_are_numbered_from_one (names : List String) (h : names.length < reservedOrdinal) :
    ((∃ t, ofNames names = .ok t) ↔ names ≠ [] ∧ names.Nodup) ∧
      (∀ fault, ofNames names = .error fault ↔
        names = [] ∧ fault = .empty ∨
          ∃ name, FirstRepeat names name ∧ fault = .duplicateName name) ∧
      ∀ t, ofNames names = .ok t → t.Numbers names := by
  refine ⟨exists_ofNames_iff h, fun fault => ofNames_eq_error_iff h, ?_⟩
  intro t ht
  exact numbers_of_numbered (ofStages_eq_ok_iff.mp ht).2

/-- Three names, and the same with one of them again. -/
theorem names_of_three_and_with_one_again :
    (∃ t, ofNames ["creating", "uploading", "restarting"] = .ok t ∧
      t.levelOf "uploading" = some 2 ∧ t.last = ⟨"restarting", 3⟩ ∧
      t.classify "restarting" (t.levelOf "uploading") = some .pending) ∧
    ofNames ["creating", "uploading", "creating", "uploading"] =
      .error (.duplicateName "creating") := by
  obtain ⟨hok, -, hnumbers⟩ :=
    names_are_numbered_from_one ["creating", "uploading", "restarting"] (by decide)
  obtain ⟨-, herror, -⟩ :=
    names_are_numbered_from_one ["creating", "uploading", "creating", "uploading"] (by decide)
  refine ⟨?_, (herror _).mpr (.inr ⟨"creating", ?_, rfl⟩)⟩
  · obtain ⟨t, ht⟩ := hok.mpr ⟨by decide, by decide⟩
    have hn := hnumbers t ht
    obtain ⟨hname, hordinal⟩ := hn.last
    refine ⟨t, ht, hn.level 1 (by decide), ?_, hn.after 2 1 (by decide) (by decide)⟩
    rw [show t.last = ⟨t.last.name, t.last.ordinal⟩ from rfl, ← Option.some.inj hname, hordinal]
    rfl
  · exact ⟨["creating", "uploading"], ["uploading"], rfl, by decide, by decide⟩

end StageTable

end Provisioning
