-- Commands from their arguments to their outcome, with a service that answers
-- from a list of replies.
import Provisioning.CommandLine.Settings
import Provisioning.CommandLine.Watch
import Provisioning.Http.Source

namespace Provisioning

/-- What a command comes down to once its settings are in order. -/
inductive Task
  | print (lines : List String)
  | list (config : Config) (source : HttpSource)
  | watch (config : Config) (source : HttpSource) (appId : String) (asJson : Bool)

/-- A task, with the settings for its log. -/
structure Assignment where
  filter : LogFilter
  format : LogFormat
  task : Task

namespace CommandLine

/-- The source that a configuration names. -/
def source (c : Config) : Except CommandFailure HttpSource :=
  match HttpSource.ofConfig c with
  | .ok source => .ok source
  | .error e => .error ⟨"invalid API URL", e.causes⟩

def task (command : Command) (c : Config) : Except CommandFailure Task :=
  match command with
  | .stages => .ok (.print c.stageLines)
  | .list => (source c).map (.list c)
  | .watch appId asJson => (source c).map (.watch c · appId asJson)

/-- Gathers the settings of a command. The log comes first. -/
def assignment (line : CommandLine) (s : Surroundings) : Except CommandFailure Assignment := do
  let filter ← line.options.logFilter s
  let config ← line.options.config s
  let task ← task line.command config
  return { filter, format := line.options.logSettings.format, task }

end CommandLine

/-! ## Outcomes -/

/-- What a command leaves behind. -/
structure CommandOutcome where
  /-- Nothing of a command that goes on. -/
  exitCode : Option Nat := some 0
  output : List String := []
  /-- The report of a failure. -/
  errors : List String := []
  logs : List LogRecord := []
  requests : List HttpRequest := []

namespace CommandOutcome

def ofUsage (u : UsageEnd) : CommandOutcome := { exitCode := some u.exitCode, output := u.lines }

/-- The same with a failure at the end. -/
def failing (o : CommandOutcome) (f : CommandFailure) : CommandOutcome :=
  { o with exitCode := some 1, errors := f.lines }

/-- The same with the log that a filter lets through. -/
def logging (o : CommandOutcome) (a : Assignment) (records : List LogRecord) : CommandOutcome :=
  { o with logs := records.filter a.filter.admitsRecord }

end CommandOutcome

/-! ## Running -/

/-- What stands around a command: the service that it talks to and how, and its user's
patience. -/
structure Scene where
  surroundings : Surroundings
  client : HttpClient := .direct
  replies : List HttpReply := []
  /-- After how many requests the user interrupts, if ever. -/
  interruptAfter : Option Nat := none

namespace Scene

/-- How long the user still waits after the last request. -/
def patienceMs : Nat := 200

/-- The service before the command. -/
def service (s : Scene) : HttpService := { replies := s.replies }

/-- The time by which a number of fetches has ended. -/
def horizon (w : Watch) (source : HttpSource) (fetches : Nat) : Nat :=
  fetches * (w.session.plan.restMs + source.timeout.ceilMillis) + 1

/-- Watches until the session ends or the user interrupts. Without either, until
the service has given its last reply, which it would go on to repeat. -/
def follow (s : Scene) (source : HttpSource) (w : Watch) : Watch :=
  match s.interruptAfter with
  | none => w.runWhile (fun _ => true) (horizon w source (s.replies.length + 1))
  | some n =>
    let w := w.runWhile (fun t => t.source.calls < n) (horizon w source (n + 1))
    let w := w.runWhile (fun _ => true) (w.session.since + patienceMs)
    if w.session.phase.isEnded then w else w.interrupt

/-- The records that end a log in a format. -/
def closing (f : LogFormat) (w : Watch) : List LogRecord :=
  match f with
  | .json => w.closing
  | .pretty => []

def watch (s : Scene) (a : Assignment) (config : Config) (source : HttpSource) (appId : String)
    (asJson : Bool) (timeText : Nat → String) : CommandOutcome :=
  match Session.start "" appId config (source.scripted s.client s.service appId) .newChannel
      (.logging .debug) timeText with
  | .error e => ({} : CommandOutcome).failing ⟨"failed to start polling session", e.causes⟩
  | .ok session =>
    let w := s.follow source (.ofSession session asJson)
    let (service, _) := source.exchanges s.client appId w.session.source.calls s.service
    let outcome := ({ output := w.output.toList, requests := service.served : CommandOutcome }).logging
      a (w.session.logs.toList ++ closing a.format w)
    match w.ending? with
    | some (.ok lines) => { outcome with output := outcome.output ++ lines }
    | some (.error failure) => outcome.failing failure
    | none => { outcome with exitCode := none }

def list (s : Scene) (a : Assignment) (config : Config) (source : HttpSource) : CommandOutcome :=
  let (service, fetched) := source.fetchList s.client s.service
  let outcome := ({ requests := service.served : CommandOutcome }).logging a
    [⟨.source, ⟨.debug, "GET"⟩⟩]
  match fetched with
  | .ok apps => { outcome with output := config.applicationLines apps }
  | .error e => outcome.failing ⟨"failed to list applications", e.causes⟩

/-- Runs a command. Times are printed as `timeText` gives them. -/
def run (s : Scene) (arguments : List String) (timeText : Nat → String) : CommandOutcome :=
  match CommandLine.ofArguments arguments with
  | .error usage => .ofUsage usage
  | .ok line =>
    match line.assignment s.surroundings with
    | .error failure => ({} : CommandOutcome).failing failure
    | .ok a =>
      match a.task with
      | .print lines => { output := lines }
      | .list config source => s.list a config source
      | .watch config source appId asJson => s.watch a config source appId asJson timeText

end Scene

end Provisioning
