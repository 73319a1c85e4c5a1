import StackControl.Arguments.Command
import StackControl.Configuration.Error
import StackControl.Lifecycle.Host
import StackControl.Logging

/-!
# Runs of the tool

A run reads its command line, loads the configuration, sets up logging, resolves the stack settings,
finds out where it takes place, and has the command carried out.  The first of these that fails
ends it.  Its exit status says what came of it: zero for a success or a request for help, the code
of a process that was run, two for a misused command line or context, and one for any other error.
-/

namespace StackControl.Run

open Lifecycle (Command Context Outcome)

/-- How a run fails. -/
inductive Error
  | configuration (error : Configuration.LoadError)
  | usage (error : Arguments.UsageError)
  | logging (error : LoggingError)
  | lifecycle (error : Lifecycle.Error)
deriving DecidableEq, Repr

/-- What a run says of itself. -/
inductive Notice
  /-- The text of a command line that was not read to a command, which is help, the version, or what
  is wrong with it. -/
  | usage (error : Arguments.UsageError)
  | text (message : String)
deriving DecidableEq, Repr

namespace Error

/-- What is said about an error. -/
def notice : Error → Notice
  | configuration error => .text ("failed to load configuration: " ++ error.message)
  | usage error => .usage error
  | logging error => .text ("failed to initialise logging: " ++ error.message)
  | lifecycle error => .text error.message

/-- Whether an error is none: help or the version was asked for. -/
def isRequest : Error → Bool
  | usage error => error.isRequest
  | _ => false

/-- The exit status of a run that fails in this way. -/
def exitStatus : Error → Nat
  | usage error => error.exitStatus
  | lifecycle error => if error.isUsage then 2 else 1
  | _ => 1

end Error

/-- A call of a run. -/
inductive Call
  /-- Loads the configuration from the program and its configuration flags. -/
  | loadConfiguration (arguments : List Bytes)
  | startLogging (config : Config)
  | environment
  | detectContext
  /-- Carries out a command. -/
  | handle (command : Command) (context : Context)
  /-- Writes to a stream, whether or not that succeeds. -/
  | write (stream : Machine.OutputStream) (notice : Notice)
  /-- Writes a line to a stream, whether or not that succeeds. -/
  | writeLine (stream : Machine.OutputStream) (notice : Notice)

/-- What a call is answered with. -/
abbrev Call.Answer : Call → Type
  | loadConfiguration _ => Except Configuration.LoadError Config
  | startLogging _ => Except LoggingError Unit
  | environment => Environment
  | detectContext => ExecutionContext
  | handle _ _ => Except Lifecycle.Error Outcome
  | write _ _ | writeLine _ _ => Unit

/-- A procedure over the calls of a run. -/
abbrev Activity := Procedure Call Call.Answer

/-- A procedure that can fail as a run does. -/
abbrev Flow := ExceptT Error Activity

/-- Makes a call that can fail, and says what its failure means. -/
def demand {ε α : Type} (toError : ε → Error) (action : Activity (Except ε α)) : Flow α :=
  ExceptT.mk ((fun result => result.mapError toError) <$> action)

/-- Carries out a command line, whose first token is the program. -/
def attempt (patience : Nat) (arguments : List Bytes) : Flow Outcome := do
  let split := Arguments.split arguments
  let request ← ExceptT.mk
    (pure ((Arguments.parse (Arguments.commandArguments arguments)).mapError .usage))
  let config ← demand .configuration (Procedure.call (Call.loadConfiguration split.configuration))
  demand .logging (Procedure.call (Call.startLogging config))
  let environment ← ExceptT.lift (Procedure.call Call.environment)
  let execution ← ExceptT.lift (Procedure.call Call.detectContext)
  let context : Context :=
    { config := config
      configurationArguments := split.configuration
      settings := .resolve request.settings environment
      execution := execution
      patience := patience }
  demand .lifecycle (Procedure.call (Call.handle request.command context))

/-- Ends a run: shows what was asked for on standard output or reports an error on standard error,
and answers the exit status. -/
def conclude : Except Error Outcome → Activity Nat
  | .ok outcome => return reportedStatus outcome.exitCode
  | .error error =>
    if error.isRequest then do
      Procedure.call (Call.write .stdout error.notice)
      return 0
    else do
      Procedure.call (Call.writeLine .stderr error.notice)
      return error.exitStatus

/-- A run of the tool: its exit status. -/
def run (patience : Nat) (arguments : List Bytes) : Activity Nat := do
  conclude (← (attempt patience arguments).run)

end StackControl.Run
