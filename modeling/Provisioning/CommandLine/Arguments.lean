-- Arguments of the command line. Options may stand before or after the command;
-- each of the two places takes every option once, and the later place wins.
import Provisioning.Config.Scheme
import Provisioning.Time.Interval

namespace Provisioning

/-- What is asked for. -/
inductive Command
  /-- Follow an application; as JSON, or as a listing of its stages. -/
  | watch (appId : String) (asJson : Bool)
  | list
  | stages
deriving DecidableEq, Repr

/-- The options that go with every command. -/
structure CommonOptions where
  configPath : Option String := none
  baseUrl : Option String := none
  scheme : Option Scheme := none
  pollInterval : Option Duration := none
  logLevel : Option String := none
  jsonLogs : Bool := false
deriving DecidableEq, Repr

structure CommandLine where
  options : CommonOptions
  command : Command
deriving DecidableEq, Repr

/-- Why arguments are not carried out. -/
inductive UsageEnd
  | help
  | version
  | wrong
deriving DecidableEq, Repr

def UsageEnd.exitCode : UsageEnd → Nat
  | wrong => 2
  | _ => 0

/-- How the program is used. -/
def usageLines : List String := [
  "Usage: applauncher [OPTIONS] <COMMAND>",
  "",
  "Commands:",
  "  watch <APP_ID> [--json]  Follow one application until provisioning finishes",
  "  list                     List applications managed by the launcher",
  "  stages                   Print the configured stage table",
  "",
  "Options:",
  "  --config <CONFIG>  --base-url <BASE_URL>  --scheme <SCHEME>",
  "  --poll-interval <POLL_INTERVAL>  --log-level <LOG_LEVEL>  --json-logs"]

/-- What is printed in place of a command's output. -/
def UsageEnd.lines : UsageEnd → List String
  | help => usageLines
  | version => ["applauncher 0.1.0"]
  | wrong => []

/-! ## Options -/

namespace CommonOptions

/-- Takes an option with its value, if it is one and has not been given. -/
def take? (o : CommonOptions) (name value : String) : Option CommonOptions :=
  match name with
  | "config" =>
    if o.configPath.isSome || value.isEmpty then none else some { o with configPath := some value }
  | "base-url" => if o.baseUrl.isSome then none else some { o with baseUrl := some value }
  | "scheme" =>
    if o.scheme.isSome then none
    else (Scheme.ofText value).toOption.map fun s => { o with scheme := some s }
  | "poll-interval" =>
    if o.pollInterval.isSome then none
    else (Duration.ofInterval value).toOption.map fun d => { o with pollInterval := some d }
  | "log-level" => if o.logLevel.isSome then none else some { o with logLevel := some value }
  | _ => none

/-- The options that take a value. -/
def withValue : List String := ["config", "base-url", "scheme", "poll-interval", "log-level"]

/-- Options from two places, of which the second comes first. -/
def mergedWith (inner outer : CommonOptions) : CommonOptions where
  configPath := inner.configPath.or outer.configPath
  baseUrl := inner.baseUrl.or outer.baseUrl
  scheme := inner.scheme.or outer.scheme
  pollInterval := inner.pollInterval.or outer.pollInterval
  logLevel := inner.logLevel.or outer.logLevel
  jsonLogs := inner.jsonLogs || outer.jsonLogs

end CommonOptions

/-! ## Reading -/

/-- A command whose own arguments are still being read. -/
inductive CommandDraft
  | watch (appId : Option String) (asJson : Bool)
  | list
  | stages

namespace CommandDraft

def ofName? : String → Option CommandDraft
  | "watch" => some (watch none false)
  | "list" => some list
  | "stages" => some stages
  | _ => none

def complete? : CommandDraft → Option Command
  | watch (some appId) asJson => some (.watch appId asJson)
  | watch none _ => none
  | list => some .list
  | stages => some .stages

end CommandDraft

/-- Where a reader of arguments stands. -/
structure ArgumentReading where
  outer : CommonOptions := {}
  /-- The command, with the options after it. -/
  command : Option (CommandDraft × CommonOptions) := none
  /-- An option that waits for its value. -/
  awaiting : Option String := none
  /-- After two dashes by themselves, nothing is an option. -/
  onlyWords : Bool := false

namespace ArgumentReading

/-- Changes the options of the place that the reader is at. -/
def update (r : ArgumentReading) (change : CommonOptions → Option CommonOptions) :
    Except UsageEnd ArgumentReading :=
  match r.command with
  | none =>
    match change r.outer with
    | some outer => .ok { r with outer, awaiting := none }
    | none => .error .wrong
  | some (draft, inner) =>
    match change inner with
    | some inner => .ok { r with command := some (draft, inner), awaiting := none }
    | none => .error .wrong

/-- An argument without dashes: the command, or the application to watch. -/
def takeWord (r : ArgumentReading) (word : String) : Except UsageEnd ArgumentReading :=
  match r.command with
  | none =>
    if r.onlyWords then .error .wrong
    else if word = "help" then .error .help
    else match CommandDraft.ofName? word with
      | some draft => .ok { r with command := some (draft, {}) }
      | none => .error .wrong
  | some (.watch none asJson, inner) =>
    .ok { r with command := some (.watch (some word) asJson, inner) }
  | some _ => .error .wrong

/-- An option by its name, with its value if that is attached. -/
def takeOption (r : ArgumentReading) (name : String) (value : Option String) :
    Except UsageEnd ArgumentReading :=
  match name, value, r.command with
  | "help", none, _ => .error .help
  | "version", none, none => .error .version
  | "json", none, some (.watch appId false, inner) =>
    .ok { r with command := some (.watch appId true, inner) }
  | "json-logs", none, _ =>
    r.update fun o => if o.jsonLogs then none else some { o with jsonLogs := true }
  | name, some value, _ => r.update (·.take? name value)
  | name, none, _ =>
    if CommonOptions.withValue.contains name then .ok { r with awaiting := some name }
    else .error .wrong

/-- Takes the next argument. -/
def take (r : ArgumentReading) (argument : String) : Except UsageEnd ArgumentReading :=
  match r.awaiting, argument.toList with
  | some name, cs =>
    if cs.head? = some '-' ∧ cs ≠ ['-'] then .error .wrong
    else r.update (·.take? name argument)
  | none, cs =>
    if r.onlyWords then r.takeWord argument
    else match cs with
      | ['-', '-'] => .ok { r with onlyWords := true }
      | '-' :: '-' :: option =>
        match option.span (· != '=') with
        | (name, _ :: value) => r.takeOption (String.ofList name) (some (String.ofList value))
        | (name, []) => r.takeOption (String.ofList name) none
      | '-' :: 'h' :: _ => .error .help
      | '-' :: 'V' :: _ => .error (if r.command.isNone then .version else .wrong)
      | '-' :: _ :: _ => .error .wrong
      | _ => r.takeWord argument

/-- What has been read, if it is a whole command line. -/
def complete (r : ArgumentReading) : Except UsageEnd CommandLine :=
  match r.awaiting, r.command with
  | none, some (draft, inner) =>
    match draft.complete? with
    | some command => .ok { options := inner.mergedWith r.outer, command }
    | none => .error .wrong
  | _, _ => .error .wrong

end ArgumentReading

/-- The command line that arguments make. -/
def CommandLine.ofArguments (arguments : List String) : Except UsageEnd CommandLine := do
  (← arguments.foldlM ArgumentReading.take {}).complete

end Provisioning
