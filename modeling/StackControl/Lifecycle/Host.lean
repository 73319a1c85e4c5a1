import StackControl.Arguments.Split
import StackControl.Lifecycle.Prerequisites
import StackControl.Lifecycle.Readiness

/-!
# Commands on the host

On the host a command drives the container engine, or is forwarded into the primary container,
where the same tool carries it out.
-/

namespace StackControl.Lifecycle

/-- What a command is carried out with. -/
structure Context where
  config : Config
  /-- The configuration flags of the command line, with the program before them. -/
  configurationArguments : List Bytes
  settings : StackSettings
  execution : ExecutionContext
  /-- How many refusals of one service the readiness gate watches at most. -/
  patience : Nat

namespace Context

/-- The service group of a run. -/
def group (context : Context) : ServiceGroup :=
  .ofSettings context.config context.settings

end Context

/-- The name of the tool inside the container. -/
def toolName : String := "stackctl"

/-- The running primary container, which has to be there. -/
def runningPrimary (group : ServiceGroup) : Flow String := do
  match ← Flow.engine (.runningContainer group Service.primaryName) with
  | some container => return container
  | none => throw (.notRunning group.project)

/-- The line that says that a stack is up. -/
def runningLine (context : Context) : String :=
  "stack '" ++ context.settings.project ++ "' is running (revision " ++
    context.settings.revision ++ "); RPC listening on 127.0.0.1:" ++
    toString context.config.rpcPort.toNat

/-- Prepares and starts the group, and waits until its services accept connections. -/
def bringUp (context : Context) (rebuild : Bool) : Flow Outcome := do
  let _ ← prepare context.config context.settings rebuild
  let group := context.group
  Flow.engine (.up group)
  let container ← runningPrimary group
  awaitReadiness container context.config.rpcPort context.config.readyTimeoutSecs.toNat
    context.patience
  Flow.say (runningLine context)
  return .reached .running

/-- Stops the group, and removes its volumes if asked. -/
def tearDown (context : Context) (removeVolumes : Bool) : Flow Outcome := do
  let group := context.group
  Flow.engine (.down group removeVolumes)
  Flow.say ("stack '" ++ group.project ++ "' stopped" ++
    (if removeVolumes then " and its volumes removed" else ""))
  return .reached .stopped

/-- Reports whether the primary service runs. -/
def status (context : Context) : Flow Outcome := do
  let group := context.group
  match ← Flow.engine (.runningContainer group Service.primaryName) with
  | some container =>
    Flow.say ("stack '" ++ group.project ++ "' is running; " ++ Service.primaryName ++
      " container " ++ container)
    return .reached .running
  | none =>
    Flow.say ("stack '" ++ group.project ++
      "' is not running; use 'stackctl up' to start it.")
    return .reached .stopped

/-- The file that the logs of a service are written to. -/
def logPath (directory project service : String) : String :=
  Path.joinText directory (project ++ "_" ++ service ++ ".log")

/-- Writes the logs of one service, if it has a container. -/
def dumpServiceLogs (group : ServiceGroup) (directory service : String) : Flow Unit := do
  match ← Flow.engine (.logs group service) with
  | none => Flow.complain ("no logs for service '" ++ service ++ "'")
  | some logs =>
    let path := logPath directory group.project service
    Flow.demand (.writeLogs path) (Flow.files (.write (Utf8.encode path) (Utf8.encode logs)))
    Flow.say ("wrote " ++ path)

/-- Writes the logs of services, in order. -/
def dumpEach (group : ServiceGroup) (directory : String) : List String → Flow Unit
  | [] => return
  | service :: rest => do
    dumpServiceLogs group directory service
    dumpEach group directory rest

/-- Writes the logs of every service into a directory. -/
def dumpLogs (context : Context) (directory : String) : Flow Outcome := do
  Flow.demand (.writeLogs directory) (Flow.files (.makeDirectories (Utf8.encode directory)))
  dumpEach context.group directory (Service.all.map (·.name))
  return .done

/-- The command line that carries out a command inside the container. -/
def forwardedLine (context : Context) (command : Command) : List String :=
  toolName :: Arguments.forwardedFlags context.configurationArguments ++
    command.name :: command.forwardedArguments

/-- Carries out a command inside the primary container. -/
def forward (context : Context) (command : Command) : Flow Outcome := do
  let container ← runningPrimary context.group
  let code ← Flow.engine
    (.exec container (forwardedLine context command) (command matches .shell))
  return .exit code

end StackControl.Lifecycle
