-- Stages, tables and classes in JSON.
import Provisioning.Json.Decode
import Provisioning.Stage.Classification

namespace Provisioning

open Json

/-! ## Stages -/

def Stage.toJson (s : Stage) : Value :=
  .object [("name", .string s.name), ("ordinal", .ofNat s.ordinal)]

/-- The members of a stage that have been read. -/
structure StageMembers where
  name : Option String := none
  ordinal : Option Nat := none

def StageMembers.read : MemberReader StageMembers
  | "name", s, node => some ((readField "name" s.name decodeString node).map ({ s with name := · }))
  | "ordinal", s, node =>
    some ((readField "ordinal" s.ordinal decodeUInt32 node).map ({ s with ordinal := · }))
  | _, _, _ => none

/-- A stage, written as an object or as a list of its name and ordinal. -/
def Stage.ofNode (depth : Nat) : Node → Decoded Stage
  | .object members close => do
    if depth ≤ 1 then throw (.malformed .recursionLimit)
    let read ← readMembers StageMembers.read close {} members
    let name ← required "name" read.name
    let ordinal ← required "ordinal" read.ordinal
    return ⟨name, ordinal⟩
  | .list items close => do
    if depth ≤ 1 then throw (.malformed .recursionLimit)
    let expected := "struct Stage with 2 elements"
    let some (first, items) ← nextItem items close | throw (.invalidLength 0 expected)
    let name ← decodeString first
    let some (second, items) ← nextItem items close | throw (.invalidLength 1 expected)
    let ordinal ← decodeUInt32 second
    endItems items close
    return ⟨name, ordinal⟩
  | node => mismatch "struct Stage" node

/-! ## Tables -/

def StageTable.toJson (t : StageTable) : Value := .list (t.stages.map Stage.toJson)

/-- A list of stages that make a table. -/
def StageTable.ofNode (depth : Nat) (node : Node) : Decoded StageTable := do
  let stages ← decodeList depth Stage.ofNode node
  match StageTable.ofStages stages with
  | .ok table => return table
  | .error fault => throw (.refused fault.message)

/-! ## Classes -/

namespace Classification

def toJson (c : Classification) : Value := .string c.name

def ofName? (name : String) : Option Classification := all.find? (·.name == name)

def ofNode (depth : Nat) : Node → Decoded Classification :=
  decodeVariant depth (all.map Classification.name) ofName?

end Classification

end Provisioning
