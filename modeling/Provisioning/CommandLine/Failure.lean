-- Failures of the command line: what was attempted, and why it failed.
import Provisioning.Errors
import Provisioning.Log.Filter
import Provisioning.Text.Basic

namespace Provisioning

/-- What was attempted, and the causes of its failure, each one the cause of the
one before. -/
structure CommandFailure where
  attempt : String
  causes : List String
deriving DecidableEq, Repr

namespace CommandFailure

/-- The lines of a cause, with a mark before the first and blanks before the others. -/
def indented (mark : String) (cause : String) : List String :=
  match (splitParts (· == '\n') cause.toList).map String.ofList with
  | [] => []
  | first :: rest => (mark ++ first) :: rest.map (String.ofList (List.replicate mark.length ' ') ++ ·)

/-- The causes, numbered if there are several. -/
def causeLines (causes : List String) : List String :=
  match causes with
  | [cause] => indented "    " cause
  | causes => causes.zipIdx.flatMap fun (cause, i) =>
    indented ("".pushn ' ' (5 - (toString i).length) ++ toString i ++ ": ") cause

/-- The report on a failure. -/
def lines (f : CommandFailure) : List String :=
  let causes := if f.causes.isEmpty then [] else ["", "Caused by:"] ++ causeLines f.causes
  ("Error: " ++ f.attempt) :: causes

end CommandFailure

/-! ## Causes -/

def ConfigError.causes (e : ConfigError) : List String := [e.message]

def FetchError.causes (e : FetchError) : List String := [e.message]

/-- An error that holds another one has it for its cause. -/
def SessionError.causes (e : SessionError) : List String :=
  e.message :: match e with
    | .fetch inner => inner.causes
    | .config inner => inner.causes
    | .io reason => [reason]
    | _ => []

def LogFilterFault.causes (f : LogFilterFault) : List String :=
  f.message :: match f with
    | .badForm => []
    | .badLevel => [f.message]

end Provisioning
