import StackControl.Config
import StackControl.LogFilter.Basic

/-!
# Setting up logging

A process sets up logging once, with the log filter of its configuration; after that, setting it up
again changes nothing.  It fails while the filter is not well formed, and where another part of the
process has already taken charge of events.
-/

namespace StackControl

/-- Why logging could not be set up. -/
inductive LoggingError
  | filter
  | subscriber
deriving DecidableEq, Repr

/-- The text of a logging error. -/
def LoggingError.message : LoggingError → String
  | filter => "invalid log filter: invalid filter directive"
  | subscriber =>
    "failed to install telemetry subscriber: a global default trace dispatcher has already " ++
      "been set"

/-- Who receives the events of a process. -/
inductive Logging
  | nobody
  /-- The log that was set up here. -/
  | log
  /-- Another receiver, which cannot be replaced. -/
  | another
deriving DecidableEq, Repr

/-- Sets up logging. -/
def Logging.start (config : Config) : Logging → Except LoggingError Unit × Logging
  | .log => (.ok (), .log)
  | state =>
    if !LogFilter.isValid config.logFilter then (.error .filter, state)
    else
      match state with
      | .another => (.error .subscriber, .another)
      | _ => (.ok (), .log)

end StackControl
