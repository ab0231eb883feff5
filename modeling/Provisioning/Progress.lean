-- Snapshots of progress: what the latest record says, and how many there have been. Readers
-- learn of every change once, and learn that there will be none any more.
import Provisioning.Application.Json
import Provisioning.Stage.Classification

namespace Provisioning

open Json

/-- The empty snapshot stands for no record at all. -/
structure Snapshot where
  application : Option Application := none
  state : Option String := none
  level : Option Nat := none
  /-- The time of the record, as text. -/
  fetchedAt : Option String := none
  /-- How many records there have been. -/
  sequence : Nat := 0

namespace Snapshot

def classify (p : Snapshot) (ordinal : Nat) : Classification := .ofOrdinal ordinal p.level

/-- The snapshot that follows with a new record. -/
def next (p : Snapshot) (c : Config) (a : Application) (fetchedAt : String) :
    Snapshot where
  application := some a
  state := a.state c
  level := (a.state c).bind c.stateLevel
  fetchedAt := some fetchedAt
  sequence := p.sequence + 1

def toJson (p : Snapshot) : Value :=
  .object [("application", .ofOption Application.toJson p.application), ("state", .ofText? p.state),
    ("level", .ofOption .ofNat p.level), ("fetched_at", .ofText? p.fetchedAt),
    ("sequence", .ofNat p.sequence)]

end Snapshot

/-! ## Readers -/

/-- What a session makes known: the latest snapshot, and whether more may follow.
Of several snapshots since a reader looked, it meets the latest only. -/
structure ProgressChannel where
  latest : Snapshot := {}
  isOpen : Bool := true

/-- A reader knows the number of the snapshot that it was told of last. -/
structure ProgressReader where
  seen : Nat := 0
deriving DecidableEq, Repr

/-- What a reader is told. -/
inductive News
  | changed
  | over
  | nothing
deriving DecidableEq, Repr

/-- Tells a reader what is new. A change comes before the end. -/
def ProgressReader.ask (r : ProgressReader) (c : ProgressChannel) : ProgressReader × News :=
  if r.seen ≠ c.latest.sequence then (⟨c.latest.sequence⟩, .changed)
  else if c.isOpen then (r, .nothing)
  else (r, .over)

end Provisioning
