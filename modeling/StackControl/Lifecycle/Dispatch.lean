import StackControl.Lifecycle.Host
import StackControl.Lifecycle.Managed

/-!
# Dispatch by execution context

A command is carried out in one of two contexts, and some are refused in one of them.
-/

namespace StackControl.Lifecycle

/-- Where the logs are written when no directory is named. -/
def defaultLogDirectory : String := "."

/-- Refuses a command in the present context. -/
def refuse (command : Command) (context : ExecutionContext) (hint : String) : Flow Outcome :=
  throw (.wrongContext command.name context hint)

/-- Carries out a command on the host. -/
def handleOnHost (context : Context) (command : Command) : Flow Outcome :=
  match command with
  | .up rebuild => bringUp context rebuild
  | .down => tearDown context false
  | .destroy => tearDown context true
  | .status => status context
  | .logs directory => dumpLogs context (directory.getD defaultLogDirectory)
  | .shell | .test _ | .stop true => forward context command
  | .start => refuse command .host "use 'stackctl up' to start the stack from the host"
  | .stop false =>
    refuse command .host
      ("use 'stackctl stop --forward' to stop the service in the running stack, " ++
        "or 'stackctl down' to stop the stack")

/-- Carries out a command in the managed runtime. -/
def handleManaged (context : Context) (command : Command) : Flow Outcome :=
  match command with
  | .start => startService context.config
  | .stop _ => stopService context.config
  | .test files => runTests context.config files
  | .shell => openShell context.config
  | .up _ | .down | .destroy | .status | .logs _ => refuse command .managed "run it on the host"

/-- Carries out a command where the run takes place. -/
def handle (context : Context) (command : Command) : Flow Outcome :=
  match context.execution with
  | .host => handleOnHost context command
  | .managed => handleManaged context command

end StackControl.Lifecycle
