-- Application records and the metadata in them: a map of maps, of which
-- only the string entries mean anything.
import Provisioning.Config.Basic
import Provisioning.Json.Value

namespace Provisioning

open Json

/-- A record as the service reports it. What has no field of its own is kept as
it stands. -/
structure Application where
  guid : String
  name : String := ""
  space : String := ""
  org : String := ""
  extra : Members := []

namespace Application

def withName (a : Application) (name : String) : Application := { a with name }

/-! ## Metadata -/

/-- The metadata under a key, if it is an object. -/
def metadata (a : Application) (key : String) : Option Members :=
  (a.extra.find? key).bind Value.members?

/-- A metadata entry that is a string. -/
def metadataText (a : Application) (key field : String) : Option String :=
  ((a.metadata key).bind (·.find? field)).bind Value.string?

/-- Writes a metadata entry. Whatever stands under the key and is no object gives
way to one. -/
def withMetadata (a : Application) (key field value : String) : Application :=
  { a with
    extra := a.extra.insert key
      (.object (Members.insert field (.string value) ((a.metadata key).getD []))) }

/-- The state that a configuration reads out of a record. -/
def state (a : Application) (c : Config) : Option String :=
  a.metadataText c.metadataKey c.stateField

/-- Does the launcher's name stand in the metadata? -/
def isManaged (a : Application) (key : String) : Bool :=
  match a.metadataText key launcherNameField with
  | some name => !name.isEmpty
  | none => false

/-- A record that reports a state under a metadata key. -/
def reporting (id key state : String) : Application :=
  { guid := id, name := id ++ "-name" : Application }.withMetadata key launcherStateField state

end Application

end Provisioning
