-- What commands print: tables, lists, and the progress of a session.
import Provisioning.Application.Json
import Provisioning.Session.Basic

namespace Provisioning

/-- A number, at least two characters wide. -/
def twoWide (n : Nat) : String :=
  let text := toString n
  "".pushn ' ' (2 - text.length) ++ text

/-- The stage table of a configuration. -/
def Config.stageLines (c : Config) : List String :=
  (c.stages.stages.map fun s => twoWide s.ordinal ++ "  " ++ s.name) ++
    (c.terminalMarker.map ("terminal marker: " ++ ·)).toList

/-- One line for every record of the launcher's. -/
def Config.applicationLines (c : Config) (apps : List Application) : List String :=
  (apps.filter (·.isManaged c.metadataKey)).map fun a =>
    a.guid ++ "\t" ++ a.name ++ "\t" ++ (a.state c).getD "-"

/-- The mark of a stage. -/
def Classification.mark : Classification → String
  | completed => "[x]"
  | current => "[>]"
  | pending => "[ ]"

/-- A snapshot as a listing of stages. -/
def Snapshot.lines (p : Snapshot) (t : StageTable) : List String :=
  ("-- state: " ++ p.state.getD "unknown" ++ " (fetch #" ++ toString p.sequence ++ ")") ::
    (t.progress p.level).map fun row => row.classification.mark ++ " " ++ row.name

end Provisioning
