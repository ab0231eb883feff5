-- The command line program: it gathers arguments, environment and files, runs
-- the command, and prints. No service is within its reach, so every request of
-- its own is refused.
import Provisioning.CommandLine.Run
import Provisioning.Time.Timestamp

namespace Provisioning

/-- The variables that a command looks at. -/
def variableNames : List String :=
  [Environment.schemeVariable, Environment.apiUrlVariable, Environment.pollIntervalVariable,
    CommonOptions.logVariable]

/-- The content of a file, if there is one to read. -/
def readFile (path : String) : IO (Option (List UInt8)) := do
  try
    return some (← IO.FS.readBinFile path).toList
  catch _ => return none

/-- What stands around a command line. -/
def surroundings (line : CommandLine) : IO Surroundings := do
  let known ← variableNames.filterMapM fun name => do
    return (← IO.getEnv name).map (name, ·)
  let content ← match line.options.configPath with
    | some path => readFile path
    | none => pure none
  return { valueOf := fun name => known.lookup name, contentOf := fun _ => content }

def printOutcome (o : CommandOutcome) (format : LogFormat) : IO UInt32 := do
  for r in o.logs do IO.println (r.text format)
  for l in o.output do IO.println l
  for l in o.errors do IO.eprintln l
  return (o.exitCode.getD 0).toUInt32

/-- Watches in real time. -/
partial def watchLive (a : Assignment) (w : Watch) (printed logged : Nat) : IO UInt32 := do
  let logs := (w.session.logs.toList.drop logged).filter a.filter.admitsRecord
  for r in logs do IO.println (r.text a.format)
  for l in w.output.toList.drop printed do IO.println l
  (← IO.getStdout).flush
  match w.session.due? with
  | some due =>
    IO.sleep (due - w.session.since).toUInt32
    watchLive a w.move w.output.size w.session.logs.size
  | none =>
    match w.ending? with
    | some (.error failure) => printOutcome (({} : CommandOutcome).failing failure) a.format
    | some (.ok lines) => printOutcome { output := lines } a.format
    | none => printOutcome {} a.format

/-- The time in milliseconds from the start, as text. -/
def timeText (ms : Nat) : String := Timestamp.text ⟨ms / 1000, ms % 1000 * nanosPerMilli⟩

def carryOut (line : CommandLine) : IO UInt32 := do
  let scene : Scene := { surroundings := ← surroundings line }
  match line.assignment scene.surroundings with
  | .error failure => printOutcome (({} : CommandOutcome).failing failure) .pretty
  | .ok a =>
    match a.task with
    | .print lines => printOutcome { output := lines } a.format
    | .list config source => printOutcome (scene.list a config source) a.format
    | .watch config source appId asJson =>
      let script := source.scripted scene.client scene.service appId
      match Session.start "" appId config script .newChannel (.logging .debug) timeText with
      | .error e =>
        printOutcome (({} : CommandOutcome).failing ⟨"failed to start polling session", e.causes⟩)
          a.format
      | .ok session => watchLive a (.ofSession session asJson) 0 0

end Provisioning

open Provisioning in
def main (arguments : List String) : IO UInt32 := do
  match CommandLine.ofArguments arguments with
  | .ok line => carryOut line
  | .error usage =>
    for l in usage.lines do IO.println l
    if usage = .wrong then for l in usageLines do IO.eprintln l
    return usage.exitCode.toUInt32
