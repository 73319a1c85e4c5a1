import StackControl.Configuration.Load
import StackControl.Lifecycle.Realisation
import StackControl.Rehearsal.Host
import StackControl.Rehearsal.Notices

/-!
# Runs on a rehearsed host

On a stage whole runs take place with nothing prepared but the host: the configuration is loaded
from its files and variables, its files tell where a run takes place, and commands launch its
programs.  Runs share the host and who receives their events, and nothing else is kept from one to
the next.
-/

namespace StackControl.Rehearsal

/-- A host, and what a run on it needs to know beside. -/
structure Stage where
  host : Host
  /-- The file that marks the inside of the container. -/
  marker : Path := Utf8.encode ExecutionContext.containerMarker
  logging : Logging := .nobody
  /-- What the last command line was refused with. -/
  refusal : Option Arguments.UsageError := none

namespace Stage

/-- The variables of a host, as far as they are text. -/
def environment (host : Host) : Environment :=
  fun name => (host.valueOf? name).bind Utf8.decode?

/-- Adds to what was printed. -/
def print (stream : Machine.OutputStream) (text : String) (s : Stage) : Stage :=
  match stream with
  | .stdout => { s with host := { s.host with stdout := s.host.stdout ++ text } }
  | .stderr => { s with host := { s.host with stderr := s.host.stderr ++ text } }

/-- Says something, with what is put behind it. -/
def say (stream : Machine.OutputStream) (notice : Run.Notice) (ending : String) (s : Stage) :
    Stage :=
  { s.print stream (noticeWords notice ++ ending) with refusal := refusalOf? notice }

/-- Answers a call of a run. -/
def perform : (call : Run.Call) → Stage → call.Answer × Stage
  | .loadConfiguration arguments, s =>
    (Configuration.load ⟨s.host.environment, s.host.tree⟩ (arguments.drop 1), s)
  | .startLogging config, s =>
    let (result, logging) := s.logging.start config
    (result, { s with logging := logging })
  | .environment, s => (environment s.host, s)
  | .detectContext, s => (ExecutionContext.detect s.host.tree s.marker, s)
  | .handle command context, s =>
    let (result, host) := s.host.carryOut (Lifecycle.handleOnMachine context command)
    (result, { s with host := host })
  | .write stream notice, s => ((), s.say stream notice "")
  | .writeLine stream notice, s => ((), s.say stream notice "\n")

/-- A stage about to begin a run: nothing has been printed or run. -/
def fresh (s : Stage) : Stage :=
  { s with
    refusal := none
    host := { s.host with visits := [], stdout := "", stderr := "" } }

/-- Runs a command line: the exit status, and the stage afterwards. -/
def run (patience : Nat) (arguments : List Bytes) (s : Stage) : Nat × Stage :=
  (Run.run patience arguments).run (fun call s => s.perform call) s.fresh

end Stage

end StackControl.Rehearsal
