-- Why a list of stages is no table. The check looks for a name that repeats, then for an
-- ordinal that repeats, then for one out of place, and blames the first stage at which it
-- finds what it looks for.
import Mathlib.Algebra.Group.Nat.Defs
import Provisioning.Proofs.Stage.Sources

namespace Provisioning

/-! ## The first stage of its kind -/

/-- A stage stands to those before it as `bad` says, and none of those does so itself. -/
structure IsFirst (bad : List Stage → Stage → Prop) (before : List Stage) (s : Stage) : Prop where
  found : bad before s
  none_before : ∀ earlier t between, before = earlier ++ t :: between → ¬ bad earlier t

/-- What a check finds at the first stage at which it finds anything. Those in `before`
have been passed. -/
def firstFound? {α : Type} (check : List Stage → Stage → Option α) (before : List Stage) :
    List Stage → Option α
  | [] => none
  | s :: rest =>
    match check before s with
    | some a => some a
    | none => firstFound? check (before ++ [s]) rest

section
variable {α : Type} {check : List Stage → Stage → Option α} {stages : List Stage}

/-- A check finds nothing if no stage gives it anything to find. -/
theorem firstFound?_eq_none_iff {before : List Stage} :
    firstFound? check before stages = none ↔
      ∀ passed s rest, stages = passed ++ s :: rest → check (before ++ passed) s = none := by
  induction stages generalizing before with
  | nil => simp [firstFound?]
  | cons first rest ih =>
    unfold firstFound?
    cases hfirst : check before first with
    | some a =>
      simp only [reduceCtorEq, false_iff]
      intro hall
      have := hall [] first rest rfl
      rw [List.append_nil, hfirst] at this
      contradiction
    | none =>
      simp only [ih, List.append_assoc, List.singleton_append]
      constructor
      · intro hrest passed s after hsplit
        cases passed with
        | nil =>
          cases hsplit
          rw [List.append_nil, hfirst]
        | cons p passed =>
          cases hsplit
          exact hrest passed s after rfl
      · rintro hall passed s after rfl
        exact hall (first :: passed) s after rfl

/-- What a check finds, it finds at the first stage that gives it anything to find. -/
theorem firstFound?_eq_some_iff {before : List Stage} {a : α} :
    firstFound? check before stages = some a ↔
      ∃ passed s rest, stages = passed ++ s :: rest ∧ check (before ++ passed) s = some a ∧
        IsFirst (fun passed s => check (before ++ passed) s ≠ none) passed s := by
  induction stages generalizing before with
  | nil => simp [firstFound?]
  | cons first rest ih =>
    unfold firstFound?
    cases hfirst : check before first with
    | some b =>
      constructor
      · intro hb
        refine ⟨[], first, rest, rfl, by rw [List.append_nil, hfirst]; exact hb, ?_, by simp⟩
        rw [List.append_nil, hfirst]
        simp
      · rintro ⟨passed, s, after, hsplit, hs, hfound⟩
        cases passed with
        | nil =>
          cases hsplit
          rwa [List.append_nil, hfirst] at hs
        | cons p passed =>
          cases hsplit
          apply absurd _ (hfound.none_before [] first passed rfl)
          rw [List.append_nil, hfirst]
          simp
    | none =>
      simp only [ih, List.append_assoc, List.singleton_append]
      constructor
      · rintro ⟨passed, s, after, rfl, hs, hfound⟩
        refine ⟨first :: passed, s, after, rfl, hs, hfound.found, ?_⟩
        intro earlier t between hsplit
        cases earlier with
        | nil =>
          cases hsplit
          simp [hfirst]
        | cons p earlier =>
          cases hsplit
          exact hfound.none_before earlier t between rfl
      · rintro ⟨passed, s, after, hsplit, hs, hfound⟩
        cases passed with
        | nil =>
          cases hsplit
          rw [List.append_nil, hfirst] at hs
          contradiction
        | cons p passed =>
          cases hsplit
          refine ⟨passed, s, after, rfl, hs, hfound.found, ?_⟩
          rintro earlier t between rfl
          exact hfound.none_before (first :: earlier) t between rfl

end

/-- From the start of a list, the first stage that `bad` speaks of is the one at which the
check finds something. -/
theorem firstFound?_start_eq_some_iff {α : Type} {check : List Stage → Stage → Option α}
    {bad : List Stage → Stage → Prop} (hbad : ∀ before s, check before s ≠ none ↔ bad before s)
    {stages : List Stage} {a : α} :
    firstFound? check [] stages = some a ↔
      ∃ before s after, stages = before ++ s :: after ∧ check before s = some a ∧
        IsFirst bad before s := by
  have hsame : (fun passed s => check ([] ++ passed) s ≠ none) = bad := by
    funext passed s
    exact propext (hbad passed s)
  rw [firstFound?_eq_some_iff, hsame]
  rfl

/-! ## The three searches -/

/-- The name of a stage stands before it. -/
def NameStands (before : List Stage) (s : Stage) : Prop := s.name ∈ before.map Stage.name

/-- The ordinal of a stage stands before it. -/
def OrdinalStands (before : List Stage) (s : Stage) : Prop := s.ordinal ∈ before.map Stage.ordinal

/-- The ordinal that the stage after these has to exceed. -/
def lastOrdinal (before : List Stage) : Nat := (before.getLast?.map Stage.ordinal).getD 0

/-- The ordinal of a stage is reserved, or not above the one before. -/
def OutOfPlace (before : List Stage) (s : Stage) : Prop :=
  reservedOrdinal ≤ s.ordinal ∨ s.ordinal ≤ lastOrdinal before

/-- The name of a stage, if it stands before it. -/
def nameFound? (before : List Stage) (s : Stage) : Option String :=
  if s.name ∈ before.map Stage.name then some s.name else none

/-- The earliest stage that has the ordinal of another, and that other. -/
def ordinalFound? (before : List Stage) (s : Stage) : Option (Stage × Stage) :=
  (before.find? (·.ordinal == s.ordinal)).map (·, s)

/-- What is wrong with the place of a stage. -/
def placeFault? (before : List Stage) (s : Stage) : Option TableFault :=
  if reservedOrdinal ≤ s.ordinal then some (.reserved s.name s.ordinal)
  else if s.ordinal ≤ lastOrdinal before then
    some (.notIncreasing s.name s.ordinal (lastOrdinal before))
  else none

theorem lastOrdinal_snoc (before : List Stage) (s : Stage) :
    lastOrdinal (before ++ [s]) = s.ordinal := by
  simp [lastOrdinal]

theorem repeatedName?_eq {seen : List String} (before stages : List Stage)
    (hseen : ∀ name, name ∈ seen ↔ name ∈ before.map Stage.name) :
    repeatedName? seen stages = firstFound? nameFound? before stages := by
  induction stages generalizing seen before with
  | nil => rfl
  | cons s rest ih =>
    unfold repeatedName? firstFound?
    by_cases hs : s.name ∈ before.map Stage.name
    · rw [if_pos ((hseen _).mpr hs), nameFound?, if_pos hs]
    · rw [if_neg (mt (hseen _).mp hs), nameFound?, if_neg hs]
      apply ih
      intro name
      simp [hseen, or_comm]

theorem repeatedOrdinal?_eq (before stages : List Stage) :
    repeatedOrdinal? before stages = firstFound? ordinalFound? before stages := by
  induction stages generalizing before with
  | nil => rfl
  | cons s rest ih =>
    unfold repeatedOrdinal? firstFound? ordinalFound?
    cases before.find? (·.ordinal == s.ordinal) with
    | some first => rfl
    | none => exact ih _

theorem misplaced?_eq (before stages : List Stage) :
    misplaced? (lastOrdinal before) stages = firstFound? placeFault? before stages := by
  induction stages generalizing before with
  | nil => rfl
  | cons s rest ih =>
    have hrest := ih (before ++ [s])
    rw [lastOrdinal_snoc] at hrest
    unfold misplaced? firstFound?
    rw [hrest, placeFault?]
    split
    · rfl
    · split <;> rfl

/-! ## What each search finds -/

theorem nameFound?_ne_none_iff (before : List Stage) (s : Stage) :
    nameFound? before s ≠ none ↔ NameStands before s := by
  unfold nameFound? NameStands
  split <;> simp [*]

theorem ordinalFound?_ne_none_iff (before : List Stage) (s : Stage) :
    ordinalFound? before s ≠ none ↔ OrdinalStands before s := by
  unfold ordinalFound? OrdinalStands
  simp

theorem placeFault?_ne_none_iff (before : List Stage) (s : Stage) :
    placeFault? before s ≠ none ↔ OutOfPlace before s := by
  unfold placeFault? OutOfPlace
  split
  · simp [*]
  · split <;> simp [*]

/-- What a list holds first is what a search through it finds. -/
theorem find?_eq_some_iff_isFirst {p : Stage → Bool} {stages : List Stage} {s : Stage} :
    stages.find? p = some s ↔ ∃ before after, stages = before ++ s :: after ∧
      IsFirst (fun _ t => p t = true) before s := by
  rw [List.find?_eq_some_iff_append]
  constructor
  · rintro ⟨hs, before, after, rfl, hnone⟩
    refine ⟨before, after, rfl, hs, ?_⟩
    rintro earlier t between rfl
    have := hnone t (by simp)
    simpa using this
  · rintro ⟨before, after, rfl, hfirst⟩
    refine ⟨hfirst.found, before, after, rfl, ?_⟩
    intro t ht
    obtain ⟨earlier, between, rfl⟩ := List.append_of_mem ht
    simpa using hfirst.none_before earlier t between rfl

/-- Ordinals are distinct if none stands before itself. -/
theorem nodup_ordinals_iff {stages : List Stage} :
    (stages.map Stage.ordinal).Nodup ↔
      ∀ before s after, stages = before ++ s :: after → ¬ OrdinalStands before s := by
  unfold OrdinalStands
  constructor
  · rintro hnodup before s after rfl hmem
    rw [List.map_append, List.map_cons] at hnodup
    exact (List.nodup_append.mp hnodup).2.2 _ hmem _ List.mem_cons_self rfl
  · intro hsplits
    induction stages using List.reverseRecOn with
    | nil => exact List.nodup_nil
    | append_singleton stages s ih =>
      rw [List.map_append, List.nodup_append]
      refine ⟨ih ?_, by simp, ?_⟩
      · rintro before t after rfl
        exact hsplits before t (after ++ [s]) (by simp)
      · rintro a ha b hb rfl
        cases List.mem_singleton.mp hb
        exact hsplits stages s [] rfl ha

section
variable {stages : List Stage}

theorem repeatedName?_eq_none_iff :
    repeatedName? [] stages = none ↔ (stages.map Stage.name).Nodup := by
  constructor
  · intro hnone
    exact (nodup_of_repeatedName? hnone).1
  · intro hnodup
    exact repeatedName?_of_nodup hnodup (by simp)

theorem repeatedOrdinal?_eq_none_iff :
    repeatedOrdinal? [] stages = none ↔ (stages.map Stage.ordinal).Nodup := by
  simp only [repeatedOrdinal?_eq, firstFound?_eq_none_iff, nodup_ordinals_iff,
    ← ordinalFound?_ne_none_iff, List.nil_append, ne_eq, not_not]

theorem repeatedName?_eq_some_iff {name : String} :
    repeatedName? [] stages = some name ↔
      ∃ before s after, stages = before ++ s :: after ∧ s.name = name ∧
        IsFirst NameStands before s := by
  rw [repeatedName?_eq [] stages (by simp),
    firstFound?_start_eq_some_iff nameFound?_ne_none_iff]
  constructor
  · rintro ⟨before, s, after, hsplit, hfound, hfirst⟩
    have hname : s.name ∈ before.map Stage.name := hfirst.found
    rw [nameFound?, if_pos hname] at hfound
    exact ⟨before, s, after, hsplit, Option.some.inj hfound, hfirst⟩
  · rintro ⟨before, s, after, hsplit, rfl, hfirst⟩
    exact ⟨before, s, after, hsplit, if_pos hfirst.found, hfirst⟩

theorem repeatedOrdinal?_eq_some_iff {first second : Stage} :
    repeatedOrdinal? [] stages = some (first, second) ↔
      ∃ earlier between after, stages = earlier ++ first :: between ++ second :: after ∧
        IsFirst OrdinalStands (earlier ++ first :: between) second ∧
        IsFirst (fun _ t => t.ordinal = second.ordinal) earlier first := by
  rw [repeatedOrdinal?_eq, firstFound?_start_eq_some_iff ordinalFound?_ne_none_iff]
  simp only [ordinalFound?, Option.map_eq_some_iff, Prod.mk.injEq, find?_eq_some_iff_isFirst,
    beq_iff_eq]
  constructor
  · rintro ⟨before, s, after, hsplit, ⟨t, ⟨earlier, between, rfl, hearliest⟩, rfl, rfl⟩, hfirst⟩
    exact ⟨earlier, between, after, hsplit, hfirst, hearliest⟩
  · rintro ⟨earlier, between, after, hsplit, hfirst, hearliest⟩
    exact ⟨_, second, after, hsplit, ⟨first, ⟨earlier, between, rfl, hearliest⟩, rfl, rfl⟩, hfirst⟩

theorem misplaced?_eq_some_iff {fault : TableFault} :
    misplaced? 0 stages = some fault ↔
      ∃ before s after, stages = before ++ s :: after ∧ placeFault? before s = some fault ∧
        IsFirst OutOfPlace before s := by
  have hstart : misplaced? 0 stages = firstFound? placeFault? [] stages := misplaced?_eq [] stages
  rw [hstart, firstFound?_start_eq_some_iff placeFault?_ne_none_iff]

end

/-! ## The law -/

/-- Why a list is no table, and which of its stages is to blame. Names are looked at
first, shared ordinals only if names are distinct, and places only if ordinals are too. -/
inductive RefusedFor (stages : List Stage) : TableFault → Prop
  | empty (isEmpty : stages = []) : RefusedFor stages .empty
  /-- The first stage whose name stands before it. -/
  | duplicateName {before after : List Stage} {s : Stage}
      (split : stages = before ++ s :: after) (isFirst : IsFirst NameStands before s) :
      RefusedFor stages (.duplicateName s.name)
  /-- The first stage whose ordinal stands before it, and the earliest with that ordinal. -/
  | duplicateOrdinal {earlier between after : List Stage} {first second : Stage}
      (split : stages = earlier ++ first :: between ++ second :: after)
      (names : (stages.map Stage.name).Nodup)
      (isFirst : IsFirst OrdinalStands (earlier ++ first :: between) second)
      (isEarliest : IsFirst (fun _ t => t.ordinal = second.ordinal) earlier first) :
      RefusedFor stages (.duplicateOrdinal second.ordinal first.name second.name)
  /-- The first stage out of place has the reserved ordinal. -/
  | reserved {before after : List Stage} {s : Stage} (split : stages = before ++ s :: after)
      (names : (stages.map Stage.name).Nodup) (ordinals : (stages.map Stage.ordinal).Nodup)
      (isFirst : IsFirst OutOfPlace before s) (isReserved : reservedOrdinal ≤ s.ordinal) :
      RefusedFor stages (.reserved s.name s.ordinal)
  /-- The first stage out of place has another ordinal, not above the one before. -/
  | notIncreasing {before after : List Stage} {s : Stage} (split : stages = before ++ s :: after)
      (names : (stages.map Stage.name).Nodup) (ordinals : (stages.map Stage.ordinal).Nodup)
      (isFirst : IsFirst OutOfPlace before s) (isUnreserved : s.ordinal < reservedOrdinal) :
      RefusedFor stages (.notIncreasing s.name s.ordinal (lastOrdinal before))

theorem refusedFor_of_misplaced? {stages : List Stage} {fault : TableFault}
    (names : (stages.map Stage.name).Nodup) (ordinals : (stages.map Stage.ordinal).Nodup)
    (h : misplaced? 0 stages = some fault) : RefusedFor stages fault := by
  obtain ⟨before, s, after, hsplit, hfault, hfirst⟩ := misplaced?_eq_some_iff.mp h
  unfold placeFault? at hfault
  split at hfault
  · rename_i hreserved
    cases hfault
    exact .reserved hsplit names ordinals hfirst hreserved
  · rename_i hreserved
    rw [if_pos (hfirst.found.resolve_left hreserved)] at hfault
    cases hfault
    exact .notIncreasing hsplit names ordinals hfirst (Nat.lt_of_not_le hreserved)

theorem refusedFor_of_tableFault? {stages : List Stage} {fault : TableFault}
    (h : tableFault? stages = some fault) : RefusedFor stages fault := by
  unfold tableFault? at h
  split at h
  · rename_i hempty
    cases h
    exact .empty hempty
  · split at h
    · rename_i name hname
      cases h
      obtain ⟨before, s, after, hsplit, rfl, hfirst⟩ := repeatedName?_eq_some_iff.mp hname
      exact .duplicateName hsplit hfirst
    · rename_i hname
      have names := repeatedName?_eq_none_iff.mp hname
      split at h
      · rename_i first second hordinal
        cases h
        obtain ⟨earlier, between, after, hsplit, hfirst, hearliest⟩ :=
          repeatedOrdinal?_eq_some_iff.mp hordinal
        exact .duplicateOrdinal hsplit names hfirst hearliest
      · rename_i hordinal
        exact refusedFor_of_misplaced? names (repeatedOrdinal?_eq_none_iff.mp hordinal) h

theorem RefusedFor.tableFault? {stages : List Stage} {fault : TableFault}
    (h : RefusedFor stages fault) : tableFault? stages = some fault := by
  unfold Provisioning.tableFault?
  cases h with
  | empty isEmpty => rw [if_pos isEmpty]
  | duplicateName split isFirst =>
    rw [if_neg (by simp [split]), repeatedName?_eq_some_iff.mpr ⟨_, _, _, split, rfl, isFirst⟩]
  | duplicateOrdinal split names isFirst isEarliest =>
    rw [if_neg (by simp [split]), repeatedName?_eq_none_iff.mpr names,
      repeatedOrdinal?_eq_some_iff.mpr ⟨_, _, _, split, isFirst, isEarliest⟩]
  | reserved split names ordinals isFirst isReserved =>
    rw [if_neg (by simp [split]), repeatedName?_eq_none_iff.mpr names,
      repeatedOrdinal?_eq_none_iff.mpr ordinals]
    exact misplaced?_eq_some_iff.mpr ⟨_, _, _, split, if_pos isReserved, isFirst⟩
  | notIncreasing split names ordinals isFirst isUnreserved =>
    have hplace := Nat.not_le_of_lt isUnreserved
    rw [if_neg (by simp [split]), repeatedName?_eq_none_iff.mpr names,
      repeatedOrdinal?_eq_none_iff.mpr ordinals]
    refine misplaced?_eq_some_iff.mpr ⟨_, _, _, split, ?_, isFirst⟩
    unfold placeFault?
    rw [if_neg hplace, if_pos (isFirst.found.resolve_left hplace)]

theorem StageTable.ofStages_eq_error_iff {stages : List Stage} {fault : TableFault} :
    ofStages stages = .error fault ↔ Provisioning.tableFault? stages = some fault := by
  unfold ofStages
  split
  · rename_i hfault
    rw [hfault, Except.error.injEq, Option.some.injEq]
  · rename_i hnone
    simp [hnone]

/-- A list becomes a table, as it stands, exactly if it is well formed: it is not empty, no
name stands twice, and the ordinals go up from 1 and stay below the reserved one. Any other
list is refused, and the fault names the stage that is to blame. A 32-bit ordinal that is
refused as reserved is the greatest one. -/
theorem list_is_a_table_or_refused_for_its_first_fault (stages : List Stage) :
    ((∃ t, StageTable.ofStages stages = .ok t) ↔ WellFormed stages) ∧
      (∀ t, StageTable.ofStages stages = .ok t → t.stages = stages) ∧
      (∀ fault, StageTable.ofStages stages = .error fault ↔ RefusedFor stages fault) ∧
      ∀ name ordinal, StageTable.ofStages stages = .error (.reserved name ordinal) →
        ordinal < 2 ^ 32 → ordinal = 2 ^ 32 - 1 := by
  have hrefused : ∀ fault, StageTable.ofStages stages = .error fault ↔ RefusedFor stages fault := by
    intro fault
    rw [StageTable.ofStages_eq_error_iff]
    exact ⟨refusedFor_of_tableFault?, RefusedFor.tableFault?⟩
  refine ⟨?_, ?_, hrefused, ?_⟩
  · rw [← tableFault?_eq_none_iff]
    constructor
    · rintro ⟨t, ht⟩
      exact (StageTable.ofStages_eq_ok_iff.mp ht).1
    · intro hnone
      exact ⟨⟨stages, wellFormed_of_tableFault? hnone⟩,
        StageTable.ofStages_eq_ok_iff.mpr ⟨hnone, rfl⟩⟩
  · intro t ht
    exact (StageTable.ofStages_eq_ok_iff.mp ht).2
  · intro name ordinal hreserved hbits
    cases (hrefused _).mp hreserved with
    | reserved split names ordinals isFirst isReserved =>
      unfold reservedOrdinal UInt32.size at isReserved
      omega

/-- Lists with several faults. A name counts before the ordinals, a shared ordinal before one
out of place, and of two stages out of place the first. -/
theorem lists_of_several_faults_are_refused_for_the_first :
    RefusedFor [⟨"a", 3⟩, ⟨"b", 3⟩, ⟨"a", 1⟩] (.duplicateName "a") ∧
      RefusedFor [⟨"a", 2⟩, ⟨"b", 1⟩, ⟨"c", 2⟩] (.duplicateOrdinal 2 "a" "c") ∧
      RefusedFor [⟨"a", 5⟩, ⟨"b", 4⟩, ⟨"c", 2 ^ 32 - 1⟩] (.notIncreasing "b" 4 5) ∧
      RefusedFor [⟨"a", 5⟩, ⟨"b", 2 ^ 32 - 1⟩, ⟨"c", 4⟩] (.reserved "b" (2 ^ 32 - 1)) := by
  have hrefused : ∀ stages fault, StageTable.ofStages stages = .error fault →
      RefusedFor stages fault :=
    fun stages fault => ((list_is_a_table_or_refused_for_its_first_fault stages).2.2.1 fault).mp
  exact ⟨hrefused _ _ rfl, hrefused _ _ rfl, hrefused _ _ rfl, hrefused _ _ rfl⟩

end Provisioning
