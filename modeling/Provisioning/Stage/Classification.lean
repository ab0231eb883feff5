-- How a stage stands to the level that provisioning has reached.
import Provisioning.Stage.Table

namespace Provisioning

/-- A stage is behind, at, or ahead of the current level. -/
inductive Classification
  | current
  | completed
  | pending
deriving DecidableEq, Repr

namespace Classification

/-- The class of an ordinal. Without a level, nothing has begun. -/
def ofOrdinal (ordinal : Nat) : Option Nat → Classification
  | none => pending
  | some level =>
    if ordinal = level then current
    else if ordinal < level then completed
    else pending

def name : Classification → String
  | current => "current"
  | completed => "completed"
  | pending => "pending"

def all : List Classification := [current, completed, pending]

end Classification

/-- The class of the stage with a name, if there is one. -/
def StageTable.classify (t : StageTable) (name : String) (level : Option Nat) :
    Option Classification :=
  (t.get? name).map fun s => .ofOrdinal s.ordinal level

/-! ## Rows -/

/-- One row of a progress listing. -/
structure StageRow where
  name : String
  ordinal : Nat
  classification : Classification
deriving DecidableEq, Repr

/-- Every stage of the table with its class at a level, in order. -/
def StageTable.progress (t : StageTable) (level : Option Nat) : List StageRow :=
  t.stages.map fun s => ⟨s.name, s.ordinal, .ofOrdinal s.ordinal level⟩

end Provisioning
