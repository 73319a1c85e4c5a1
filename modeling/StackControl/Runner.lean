import StackControl.CommandLine
import StackControl.Machine.Call

/-!
# Running configured commands

The service, its tests and the shell are run with the streams of the run itself, and their exit
codes are passed on.
-/

namespace StackControl.Runner

/-- How running a command fails. -/
inductive Error
  | emptyCommand (raw : String)
  | spawn (program : String) (source : LaunchFault)
  | wait (program : String) (source : LaunchFault)
  | signals (source : LaunchFault)
deriving DecidableEq, Repr

/-- The text of a running error. -/
def Error.message : Error → String
  | emptyCommand raw => "configured command '" ++ raw ++ "' is empty"
  | spawn program source => "failed to start '" ++ program ++ "': " ++ source.message
  | wait program source => "failed to wait for '" ++ program ++ "': " ++ source.message
  | signals source => "failed to install signal forwarding: " ++ source.message

/-- The command line of a configured text. -/
def commandLine (raw : String) : Except Error CommandLine :=
  match CommandLine.parse? raw with
  | some line => .ok line
  | none => .error (.emptyCommand raw)

/-- A request to run a command. -/
inductive Request
  | run (line : CommandLine)
  /-- Runs the foreground service, which termination signals are passed on to. -/
  | supervise (line : CommandLine)
deriving DecidableEq

/-- The command of a request. -/
def Request.line : Request → CommandLine
  | run line | supervise line => line

/-- How the command of a request relates to the run. -/
def Request.manner : Request → Manner
  | run _ => .attached
  | supervise _ => .supervised

/-- Runs a command to its end: its exit code. -/
def perform (request : Request) : ExceptT Error Machine.Activity Int := do
  let line := request.line
  match ← Machine.launch (.plain line.program line.arguments) request.manner with
  | .error fault => throw (.spawn line.program fault)
  | .ok finished => return finished.status.code

end StackControl.Runner
