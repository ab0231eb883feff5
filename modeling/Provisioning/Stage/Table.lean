-- Stages and the table that puts them in order. A table is well formed by
-- its type: it has a stage, no name twice, and ordinals that go up from 1
-- and leave the greatest 32-bit number free.

namespace Provisioning

/-- A step of provisioning: the state that the service reports for it, and its
place in the sequence. -/
structure Stage where
  name : String
  ordinal : Nat
deriving DecidableEq, Repr

/-- A stage as a list shows it. -/
def Stage.text (s : Stage) : String := toString s.ordinal ++ ". " ++ s.name

/-- The greatest 32-bit number. No stage has it, so that a level past the last
stage always fits. -/
def reservedOrdinal : Nat := UInt32.size - 1

/-- Why a list of stages is no table. -/
inductive TableFault
  | empty
  | duplicateName (name : String)
  | duplicateOrdinal (ordinal : Nat) (first second : String)
  /-- The ordinal does not exceed the one before it. -/
  | notIncreasing (name : String) (ordinal previous : Nat)
  | reserved (name : String) (ordinal : Nat)
deriving DecidableEq, Repr

def TableFault.message : TableFault → String
  | .empty => "Stage table is empty"
  | .duplicateName name => "Duplicate stage name '" ++ name ++ "'"
  | .duplicateOrdinal ordinal first second =>
    "Ordinal " ++ toString ordinal ++ " is used by both '" ++ first ++ "' and '" ++ second ++ "'"
  | .notIncreasing name ordinal previous =>
    "Stage '" ++ name ++ "' has ordinal " ++ toString ordinal ++
      ", which must be greater than " ++ toString previous
  | .reserved name ordinal =>
    "Stage '" ++ name ++ "' has ordinal " ++ toString ordinal ++ ", which is reserved"

/-! ## Well-formed lists -/

/-- The lists that are tables. -/
structure WellFormed (stages : List Stage) : Prop where
  nonempty : stages ≠ []
  names : (stages.map Stage.name).Nodup
  increasing : (stages.map Stage.ordinal).Pairwise (· < ·)
  positive : ∀ s ∈ stages, 0 < s.ordinal
  unreserved : ∀ s ∈ stages, s.ordinal < reservedOrdinal

/-- The first name that `seen` or an earlier stage has. -/
def repeatedName? (seen : List String) : List Stage → Option String
  | [] => none
  | s :: rest => if s.name ∈ seen then some s.name else repeatedName? (s.name :: seen) rest

/-- The first stage whose ordinal an earlier one has, with the earliest of those. -/
def repeatedOrdinal? (earlier : List Stage) : List Stage → Option (Stage × Stage)
  | [] => none
  | s :: rest =>
    match earlier.find? (·.ordinal == s.ordinal) with
    | some first => some (first, s)
    | none => repeatedOrdinal? (earlier ++ [s]) rest

/-- The first stage whose ordinal is reserved or not above the one before. -/
def misplaced? (previous : Nat) : List Stage → Option TableFault
  | [] => none
  | s :: rest =>
    if reservedOrdinal ≤ s.ordinal then some (.reserved s.name s.ordinal)
    else if s.ordinal ≤ previous then some (.notIncreasing s.name s.ordinal previous)
    else misplaced? s.ordinal rest

/-- The fault of a list: names come before shared ordinals, and those before the
order. -/
def tableFault? (stages : List Stage) : Option TableFault :=
  if stages = [] then some .empty
  else
    match repeatedName? [] stages with
    | some name => some (.duplicateName name)
    | none =>
      match repeatedOrdinal? [] stages with
      | some (first, second) => some (.duplicateOrdinal second.ordinal first.name second.name)
      | none => misplaced? 0 stages

theorem nodup_of_repeatedName? {seen : List String} {stages : List Stage}
    (h : repeatedName? seen stages = none) :
    (stages.map Stage.name).Nodup ∧ ∀ s ∈ stages, s.name ∉ seen := by
  induction stages generalizing seen with
  | nil => simp
  | cons s rest ih =>
    unfold repeatedName? at h
    split at h
    · contradiction
    · next hs =>
      obtain ⟨hnodup, hseen⟩ := ih h
      simp only [List.map_cons, List.nodup_cons, List.mem_map, List.mem_cons, forall_eq_or_imp]
      refine ⟨⟨?_, hnodup⟩, hs, fun t ht => ?_⟩
      · rintro ⟨t, ht, hname⟩
        exact hseen t ht (by simp [hname])
      · exact fun hmem => hseen t ht (List.mem_cons_of_mem _ hmem)

theorem increasing_of_misplaced? {previous : Nat} {stages : List Stage}
    (h : misplaced? previous stages = none) :
    (stages.map Stage.ordinal).Pairwise (· < ·) ∧
      ∀ s ∈ stages, previous < s.ordinal ∧ s.ordinal < reservedOrdinal := by
  induction stages generalizing previous with
  | nil => simp
  | cons s rest ih =>
    unfold misplaced? at h
    split at h
    · contradiction
    · split at h
      · contradiction
      · next hr hp =>
        obtain ⟨hpair, hall⟩ := ih h
        simp only [List.map_cons, List.pairwise_cons, List.mem_map, List.mem_cons,
          forall_eq_or_imp]
        refine ⟨⟨?_, hpair⟩, ⟨by omega, by omega⟩, fun t ht => ?_⟩
        · rintro n ⟨t, ht, rfl⟩
          exact (hall t ht).1
        · have := hall t ht
          omega

/-- A list without a fault is well formed. -/
theorem wellFormed_of_tableFault? {stages : List Stage} (h : tableFault? stages = none) :
    WellFormed stages := by
  unfold tableFault? at h
  split at h
  · contradiction
  · next hne =>
    split at h
    · contradiction
    · next hname =>
      split at h
      · contradiction
      · have hinc := increasing_of_misplaced? h
        exact
          { nonempty := hne
            names := (nodup_of_repeatedName? hname).1
            increasing := hinc.1
            positive := fun s hs => (hinc.2 s hs).1
            unreserved := fun s hs => (hinc.2 s hs).2 }

/-! ## Tables -/

/-- The stages of a deployment, in order. -/
structure StageTable where
  stages : List Stage
  wellFormed : WellFormed stages

instance : DecidableEq StageTable := fun a b =>
  decidable_of_iff (a.stages = b.stages) ⟨fun h => by cases a; cases b; simp_all, fun h => by rw [h]⟩

namespace StageTable

/-- The table of a list of stages, as they stand. -/
def ofStages (stages : List Stage) : Except TableFault StageTable :=
  match h : tableFault? stages with
  | some fault => .error fault
  | none => .ok ⟨stages, wellFormed_of_tableFault? h⟩

/-- Stages with these names, numbered from `ordinal` on. -/
def numbered (ordinal : Nat) : List String → List Stage
  | [] => []
  | name :: rest => ⟨name, ordinal⟩ :: numbered (ordinal + 1) rest

/-- The table of a list of names, numbered from 1. -/
def ofNames (names : List String) : Except TableFault StageTable := ofStages (numbered 1 names)

/-- The stage with a name. -/
def get? (t : StageTable) (name : String) : Option Stage := t.stages.find? (·.name == name)

/-- The ordinal of a state, if it is a stage. -/
def levelOf (t : StageTable) (state : String) : Option Nat := (t.get? state).map Stage.ordinal

/-- The final stage. -/
def last (t : StageTable) : Stage := t.stages.getLast t.wellFormed.nonempty

def size (t : StageTable) : Nat := t.stages.length

end StageTable

end Provisioning
