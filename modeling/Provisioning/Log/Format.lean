-- Log settings: the levels of log lines, the form of the output, and the
-- filter text.
import Provisioning.Errors
import Provisioning.Json.Decode
import Provisioning.Text.Basic

namespace Provisioning

open Json

/-- The weight of a log line, the heaviest first. -/
inductive LogLevel
  | error
  | warn
  | info
  | debug
  | trace
deriving DecidableEq, Repr

namespace LogLevel

def name : LogLevel → String
  | error => "ERROR"
  | warn => "WARN"
  | info => "INFO"
  | debug => "DEBUG"
  | trace => "TRACE"

/-- How much a filter lets through that stops here. -/
def verbosity : LogLevel → Nat
  | error => 1
  | warn => 2
  | info => 3
  | debug => 4
  | trace => 5

end LogLevel

/-- One log line, by its level and message. -/
structure LogLine where
  level : LogLevel
  message : String
deriving DecidableEq, Repr

/-! ## Settings -/

/-- The form of the log output. -/
inductive LogFormat
  | pretty
  | json
deriving DecidableEq, Repr

namespace LogFormat

def name : LogFormat → String
  | pretty => "pretty"
  | json => "json"

def all : List LogFormat := [pretty, json]

/-- The format that a text names, in any case. -/
def ofText (text : String) : Except ConfigError LogFormat :=
  match trimmedLower text with
  | "pretty" | "text" => .ok pretty
  | "json" => .ok json
  | other => .error (.invalid "log_format" ("unknown format '" ++ other ++ "'"))

def toJson (f : LogFormat) : Value := .string f.name

def ofNode (depth : Nat) : Node → Decoded LogFormat :=
  decodeVariant depth (all.map name) fun n => all.find? (·.name == n)

end LogFormat

/-- What is logged, and in which form. -/
structure LogSettings where
  /-- Filter directives. -/
  level : Option String := none
  format : LogFormat := .pretty
deriving DecidableEq, Repr

namespace LogSettings

def toJson (s : LogSettings) : Value :=
  .object [("level", .ofText? s.level), ("format", s.format.toJson)]

/-- The members that a text gives. -/
structure Given where
  level : Option (Option String) := none
  format : Option LogFormat := none

def Given.complete (g : Given) : LogSettings := ⟨g.level.getD none, g.format.getD .pretty⟩

def Given.read (depth : Nat) : MemberReader Given
  | "level", g, node =>
    some ((readField "level" g.level (decodeOption decodeString) node).map ({ g with level := · }))
  | "format", g, node =>
    some ((readField "format" g.format (LogFormat.ofNode depth) node).map ({ g with format := · }))
  | _, _, _ => none

/-- Settings, written as an object or as a list of their first fields. -/
def ofNode (depth : Nat) : Node → Decoded LogSettings
  | .object members close =>
    if depth ≤ 1 then .error (.malformed .recursionLimit)
    else (readMembers (Given.read (depth - 1)) close {} members).map Given.complete
  | .list items close => do
    if depth ≤ 1 then throw (.malformed .recursionLimit)
    let some (first, items) ← nextItem items close | return {}
    let level ← decodeOption decodeString first
    let some (second, items) ← nextItem items close | return { level }
    let format ← LogFormat.ofNode (depth - 1) second
    endItems items close
    return { level, format }
  | node => mismatch "struct LoggingConfig" node

end LogSettings

end Provisioning
