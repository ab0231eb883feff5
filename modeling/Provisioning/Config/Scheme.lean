-- The two known ways in which deployments report their state.
import Provisioning.Errors
import Provisioning.Json.Decode
import Provisioning.Text.Basic

namespace Provisioning

/-- A preset: where the state stands, and how the end is reported. -/
inductive Scheme
  /-- State under `environment_json`; the end is never reported. -/
  | environmentJson
  /-- State under `environment_vars`; the end is reported as `finished`. -/
  | environmentVars
deriving DecidableEq, Repr

/-- The stages of both schemes, numbered from 1. -/
def provisioningStages : List Stage :=
  StageTable.numbered 1
    ["creating", "uploading", "provision_cloudera", "provision_db", "bind_services",
      "restarting_atk", "create_user"]

/-- The table of both schemes. -/
def provisioningTable : StageTable :=
  ⟨provisioningStages, wellFormed_of_tableFault? (by decide)⟩

namespace Scheme

def all : List Scheme := [environmentJson, environmentVars]

/-- The scheme of deployments that name none. -/
def standard : Scheme := environmentVars

def metadataKey : Scheme → String
  | environmentJson => "environment_json"
  | environmentVars => "environment_vars"

def terminalMarker : Scheme → Option String
  | environmentJson => none
  | environmentVars => some "finished"

/-- The scheme that a text names, by its key or a short name, in any case. -/
def ofText (text : String) : Except ConfigError Scheme :=
  match trimmedLower text with
  | "environment_json" | "json" | "legacy" => .ok environmentJson
  | "environment_vars" | "vars" | "current" => .ok environmentVars
  | _ => .error (.unknownScheme text)

/-! ## JSON -/

open Json

def toJson (s : Scheme) : Value := .string s.metadataKey

def ofNode (depth : Nat) : Node → Decoded Scheme :=
  decodeVariant depth (all.map metadataKey) fun name => all.find? (·.metadataKey == name)

end Scheme

end Provisioning
