import StackControl.Rehearsal.Notices
import StackControl.Rehearsal.World

/-!
# Rehearsed runs

A session answers the calls of whole runs from a world: the configuration is prepared, and the
environment is a table.  What came of the command, and what the command line was refused with, is
kept for inspection.
-/

namespace StackControl.Rehearsal

/-- The state of a session. -/
structure Session where
  world : World
  config : Config
  environment : List (String × String)
  /-- The file that marks the inside of the container. -/
  marker : Path := Utf8.encode ExecutionContext.containerMarker
  logging : Logging := .nobody
  outcome : Option (Except Lifecycle.Error Lifecycle.Outcome) := none
  refusal : Option Arguments.UsageError := none

namespace Session

/-- Carries out a command against the world. -/
def handle (command : Lifecycle.Command) (context : Lifecycle.Context) (s : Session) :
    Except Lifecycle.Error Lifecycle.Outcome × Session :=
  let (result, world) :=
    (Lifecycle.handle context command).run.run (fun call w => w.perform call) s.world
  (result, { s with world := world, outcome := some result })

/-- Says something, with what is put behind it. -/
def say (stream : Machine.OutputStream) (notice : Run.Notice) (ending : String) (s : Session) :
    Session :=
  { s with
    world := (s.world.write stream (noticeWords notice ++ ending)).2
    refusal := refusalOf? notice }

/-- Answers a call of a run. -/
def perform : (call : Run.Call) → Session → call.Answer × Session
  | .loadConfiguration _, s => (.ok s.config, s)
  | .startLogging config, s =>
    let (result, logging) := s.logging.start config
    (result, { s with logging := logging })
  | .environment, s => ((s.environment.lookup ·), s)
  | .detectContext, s => (ExecutionContext.detect s.world.tree s.marker, s)
  | .handle command context, s => s.handle command context
  | .write stream notice, s => ((), s.say stream notice "")
  | .writeLine stream notice, s => ((), s.say stream notice "\n")

/-- A session about to begin a run: nothing has been printed, logged or installed. -/
def fresh (s : Session) : Session :=
  { s with
    outcome := none
    refusal := none
    world := { s.world with events := [], stdout := "", stderr := "", toolInstalled := false } }

/-- Runs a command line: the exit status, and the session afterwards. -/
def run (patience : Nat) (arguments : List Bytes) (s : Session) : Nat × Session :=
  (Run.run patience arguments).run (fun call s => s.perform call) s.fresh

end Session

end StackControl.Rehearsal
