import StackControl.Engine.Basic
import StackControl.ExecutionContext
import StackControl.Lifecycle.Command
import StackControl.Machine.Call
import StackControl.Provision
import StackControl.Reaper.Pass
import StackControl.Runner

/-!
# Carrying out lifecycle commands

A lifecycle command is carried out by calls: to the container engine, to the runner of configured
commands, to the provisioner, to the processes of the managed runtime, to the file tree, to the
clock and to the output streams.  It ends with an outcome or an error.
-/

namespace StackControl

namespace Lifecycle

/-- The states a stack can be brought to or found in. -/
inductive StackState
  | running
  | stopped
deriving DecidableEq, Repr

/-- What came of a command that succeeded. -/
inductive Outcome
  | done
  | reached (state : StackState)
  /-- A process ended with this code, which is passed on. -/
  | exit (code : Int)
deriving DecidableEq, Repr

/-- The exit code that stands for an outcome. -/
def Outcome.exitCode : Outcome → Int
  | done | reached _ => 0
  | exit code => code

/-- How a command fails. -/
inductive Error
  | wrongContext (command : String) (context : ExecutionContext) (hint : String)
  | notRunning (project : String)
  | serviceNotRunning
  | readinessTimeout (service : String) (port : UInt16) (timeoutSecs : Nat)
  /-- The readiness gate was given up before it was decided. -/
  | stillWaiting (service : String)
  | extractContracts (path : String) (source : Archive.UnpackFault)
  | unsafeArchiveEntry (entry : String)
  | revisionTemplate (path : String) (source : Fault)
  | pluginCache (path : String) (source : Fault)
  | writeLogs (path : String) (source : Fault)
  | output (source : Errno)
  | engine (error : Engine.Error)
  | reaper (error : Reaper.Error)
  | provision (error : Provision.Error)
  | runner (error : Runner.Error)
deriving DecidableEq, Repr

/-- The text of a fault while unpacking. -/
def unpackMessage : Archive.UnpackFault → String
  | .fault fault => fault.message
  | .escapes entry => "entry '" ++ entry ++ "' escapes the target directory"
  | .damaged => "damaged archive"

/-- The text of an error. -/
def Error.message : Error → String
  | wrongContext command context hint =>
    "'stackctl " ++ command ++ "' cannot run on the " ++ context.display ++ "; " ++ hint
  | notRunning project =>
    "no running instance of stack '" ++ project ++ "' found; run 'stackctl up' first"
  | serviceNotRunning =>
    "no running service process found; start it with 'stackctl start' or run 'stackctl up' " ++
      "on the host"
  | readinessTimeout service port timeoutSecs =>
    "service '" ++ service ++ "' did not accept connections on port " ++
      toString port.toNat ++ " within " ++ toString timeoutSecs ++ " s"
  | stillWaiting service => "service '" ++ service ++ "' is still being waited for"
  | extractContracts path source =>
    "failed to read contract archive into " ++ path ++ ": " ++ unpackMessage source
  | unsafeArchiveEntry entry =>
    "contract archive entry '" ++ entry ++ "' escapes the target directory"
  | revisionTemplate path source =>
    "failed to inject revision into " ++ path ++ ": " ++ source.message
  | pluginCache path source => "failed to clear plugin cache " ++ path ++ ": " ++ source.message
  | writeLogs path source => "failed to write logs to " ++ path ++ ": " ++ source.message
  | output source => "failed to write lifecycle output: " ++ source.message
  | engine error => error.message
  | reaper error => error.message
  | provision error => "provisioning failed: " ++ error.message
  | runner error => error.message

/-- Whether an error says that the command belongs to the other context. -/
def Error.isUsage : Error → Bool
  | wrongContext _ _ _ => true
  | _ => false

/-- A request about the processes of the managed runtime. -/
inductive ProcessRequest
  | find (patterns : List String)
  | kill (patterns : List String)
deriving DecidableEq

/-- What a process request is answered with when it succeeds. -/
abbrev ProcessRequest.Result : ProcessRequest → Type
  | find _ => List Reaper.ProcessHandle
  | kill _ => Reaper.Report

/-- A call of a lifecycle command. -/
inductive Call
  | engine (request : Engine.Request)
  | runner (request : Runner.Request)
  | provision (request : Provision.Request)
  | processes (request : ProcessRequest)
  | files (request : Machine.FileRequest)
  | clock (request : Machine.ClockRequest)
  | print (stream : Machine.OutputStream) (line : String)

/-- What a call is answered with. -/
abbrev Call.Answer : Call → Type
  | engine request => Except Engine.Error request.Result
  | runner _ => Except Runner.Error Int
  | provision _ => Except Provision.Error Unit
  | processes request => Except Reaper.Error request.Result
  | files request => request.Answer
  | clock request => request.Answer
  | print _ _ => Except Errno Unit

/-- A procedure over the calls of lifecycle commands. -/
abbrev Activity := Procedure Call Call.Answer

/-- A procedure that can fail as a lifecycle command does. -/
abbrev Flow := ExceptT Error Activity

namespace Flow

/-- Makes a call that can fail, and says what its failure means. -/
def demand {ε α : Type} (toError : ε → Error) (action : Activity (Except ε α)) : Flow α :=
  ExceptT.mk ((fun result => result.mapError toError) <$> action)

/-- Makes a request to the engine. -/
def engine (request : Engine.Request) : Flow request.Result :=
  demand .engine (Procedure.call (Call.engine request))

/-- Runs a configured command. -/
def runner (request : Runner.Request) : Flow Int :=
  demand .runner (Procedure.call (Call.runner request))

/-- The command line of a configured text. -/
def commandLine (raw : String) : Flow CommandLine :=
  ExceptT.mk (pure ((Runner.commandLine raw).mapError .runner))

/-- Makes a request about processes. -/
def processes (request : ProcessRequest) : Flow request.Result :=
  demand .reaper (Procedure.call (Call.processes request))

/-- Makes a request to work on files. -/
def files (request : Machine.FileRequest) : Activity request.Answer :=
  Procedure.call (Call.files request)

/-- Writes a line to a stream. -/
def print (stream : Machine.OutputStream) (line : String) : Flow Unit :=
  demand .output (Procedure.call (Call.print stream line))

/-- Writes a line to standard output. -/
def say (line : String) : Flow Unit :=
  print .stdout line

/-- Writes a line to standard error. -/
def complain (line : String) : Flow Unit :=
  print .stderr line

end Flow

end Lifecycle

end StackControl
