import StackControl.Engine.Basic
import StackControl.Machine.Call
import StackControl.Text.Blank

/-!
# Driving an engine by its command line

A docker-compatible engine is driven through its program: plain commands for images and
containers, and `compose` commands for a group, which see the resolved settings in their
environment.  A path of an image is exported through a scratch container, which is removed whatever
comes of the copy.
-/

namespace StackControl.Engine

/-- An engine, by its program. -/
structure Client where
  program : String
deriving DecidableEq

/-- What an engine request comes to. -/
abbrev Attempt := ExceptT Error Machine.Activity

/-- The seconds that compose waits for a container to stop. -/
def stopTimeout : String := "1"

/-- The arguments of a compose command on a group. -/
def composeArguments (group : ServiceGroup) (arguments : List String) : List String :=
  ["compose", "-p", group.project] ++ group.composeFiles.flatMap (fun file => ["-f", file]) ++
    arguments

/-- The arguments that stop a group. -/
def downArguments (removeVolumes : Bool) : List String :=
  ["down"] ++ (if removeVolumes then ["--volumes"] else []) ++ ["--timeout", stopTimeout]

/-- The arguments of a build. -/
def buildArguments (build : Build) : List String :=
  ["build", "-t", build.tag] ++
    build.buildArguments.flatMap (fun (key, value) => ["--build-arg", key ++ "=" ++ value]) ++
    [build.context]

/-- The arguments that run a command inside a container. -/
def execArguments (container : String) (command : List String) (interactive : Bool) :
    List String :=
  ["exec"] ++ (if interactive then ["-it"] else []) ++ [container] ++ command

/-- The first line that is not blank, without the blanks around it. -/
def firstContainerId (output : Bytes) : Option String :=
  (((Text.lines (Utf8.decodeLossy output).toList).map Text.trim).find? (!·.isEmpty)).map
    String.ofList

/-- Runs a command and keeps what it writes; anything but success is an error. -/
def capture (launch : Launch) : Attempt Finished := do
  match ← Machine.launch launch .captured with
  | .error fault => throw (.launch launch.label fault)
  | .ok finished =>
    if finished.status.isSuccess then return finished
    else
      throw (.commandFailed launch.label finished.status.code
        (Text.trimmed (Utf8.decodeLossy finished.stderr)))

/-- Runs a command whose output is not looked at: its exit code. -/
def stream (launch : Launch) (manner : Manner) : Attempt Int := do
  match ← Machine.launch launch manner with
  | .error fault => throw (.launch launch.label fault)
  | .ok finished => return finished.status.code

/-- Runs a command that shares the streams of the run; any exit code but zero is an error. -/
def streamChecked (launch : Launch) : Attempt Unit := do
  let code ← stream launch .attached
  if code != 0 then
    throw (.commandFailed launch.label code "")

namespace Client

variable (client : Client)

/-- A plain engine command. -/
def command (arguments : List String) : Launch :=
  .plain client.program arguments

/-- A compose command on a group, which sees the variables of the group. -/
def compose (group : ServiceGroup) (arguments : List String) : Launch :=
  ⟨client.program, composeArguments group arguments, group.environment⟩

/-- Whether an image is in the local store. -/
def imageExists (image : String) : Attempt Bool := do
  return (← stream (client.command ["image", "inspect", image]) .discarded) == 0

/-- Exports a path of an image through a scratch container, which is removed whether or not the
copy succeeds; an error of the copy wins over one of the removal. -/
def exportPath (image path : String) : Attempt Bytes := do
  let created ← capture (client.command ["create", image])
  let id := Text.trimmed (Utf8.decodeLossy created.stdout)
  if id.isEmpty then
    throw (.missingContainerId (client.program ++ " create " ++ image))
  let copied ← outcomeOf (capture (client.command ["cp", id ++ ":" ++ path, "-"]))
  let removed ← outcomeOf (capture (client.command ["rm", "-f", id]))
  let archive ← ExceptT.mk (pure copied)
  let _ ← ExceptT.mk (pure removed)
  return archive.stdout

/-- The running container of a service. -/
def runningContainer (group : ServiceGroup) (service : String) : Attempt (Option String) := do
  let listed ← capture
    (client.compose group ["ps", "--status", "running", "-q", service])
  return firstContainerId listed.stdout

/-- The logs of a service that has a container, running or not. -/
def logs (group : ServiceGroup) (service : String) : Attempt (Option String) := do
  if (← client.runningContainer group service).isNone then
    let listed ← capture (client.compose group ["ps", "-a", "-q", service])
    if (firstContainerId listed.stdout).isNone then
      return none
  let output ← capture (client.compose group ["logs", "--no-color", service])
  return some (Utf8.decodeLossy output.stdout ++ Utf8.decodeLossy output.stderr)

/-- Carries out a request. -/
def perform : (request : Request) → Attempt request.Result
  | .imageExists image => client.imageExists image
  | .pull image => streamChecked (client.command ["pull", image])
  | .build build => streamChecked (client.command (buildArguments build))
  | .exportPath image path => client.exportPath image path
  | .up group => streamChecked (client.compose group ["up", "-d"])
  | .down group removeVolumes =>
    streamChecked (client.compose group (downArguments removeVolumes))
  | .runningContainer group service => client.runningContainer group service
  | .exec container command interactive =>
    stream (client.command (execArguments container command interactive)) .attached
  | .logs group service => client.logs group service

end Client

end StackControl.Engine
