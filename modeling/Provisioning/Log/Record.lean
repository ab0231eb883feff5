-- Log lines with their origin, which filters go by.
import Provisioning.Log.Filter

namespace Provisioning

/-- The parts of the program that log. -/
inductive LogOrigin
  | poller
  | session
  | navigation
  | source
  | sink
deriving DecidableEq, Repr

/-- The name that directives know a part by. -/
def LogOrigin.target : LogOrigin → String
  | poller => "applauncher::tracker::poller"
  | session => "applauncher::tracker::session"
  | navigation => "applauncher::tracker::navigation"
  | source => "applauncher::source::http"
  | sink => "applauncher::events::sink"

structure LogRecord where
  origin : LogOrigin
  line : LogLine
deriving DecidableEq, Repr

open Json in
/-- A record as a line of the log. -/
def LogRecord.text (r : LogRecord) : LogFormat → String
  | .pretty => r.line.level.name ++ " " ++ r.origin.target ++ ": " ++ r.line.message
  | .json => Value.text (.object [("level", .string r.line.level.name),
      ("fields", .object [("message", .string r.line.message)]), ("target", .string r.origin.target)])

/-- Is a record let through? -/
def LogFilter.admitsRecord (f : LogFilter) (r : LogRecord) : Bool :=
  f.admits r.origin.target r.line.level

end Provisioning
