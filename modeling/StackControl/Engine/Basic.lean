import StackControl.ServiceGroup
import StackControl.Machine.Launch

/-!
# Container engines

What a stack needs of a container engine, and how the engine can fail.
-/

namespace StackControl.Engine

/-- A build of a local image. -/
structure Build where
  context : String
  tag : String
  buildArguments : List (String × String)
deriving DecidableEq, Repr

/-- A request to the engine. -/
inductive Request
  /-- Whether an image is in the local store. -/
  | imageExists (image : String)
  | pull (image : String)
  | build (build : Build)
  /-- Exports a path of an image as an archive. -/
  | exportPath (image path : String)
  /-- Starts every service of a group. -/
  | up (group : ServiceGroup)
  /-- Stops and removes a group, with its volumes if asked. -/
  | down (group : ServiceGroup) (removeVolumes : Bool)
  /-- The running container of a service, if any. -/
  | runningContainer (group : ServiceGroup) (service : String)
  /-- Runs a command inside a container. -/
  | exec (container : String) (command : List String) (interactive : Bool)
  /-- The logs of a service; none when it has no container. -/
  | logs (group : ServiceGroup) (service : String)
deriving DecidableEq

/-- What a request is answered with when it succeeds. -/
abbrev Request.Result : Request → Type
  | imageExists _ => Bool
  | pull _ | build _ | up _ | down _ _ => Unit
  | exportPath _ _ => Bytes
  | runningContainer _ _ => Option String
  | exec _ _ _ => Int
  | logs _ _ => Option String

/-- How the engine fails. -/
inductive Error
  | launch (command : String) (source : LaunchFault)
  | commandFailed (command : String) (status : Int) (stderr : String)
  | missingContainerId (command : String)
deriving DecidableEq, Repr

/-- The text of an engine error. -/
def Error.message : Error → String
  | launch command source => "failed to launch '" ++ command ++ "': " ++ source.message
  | commandFailed command status stderr =>
    "'" ++ command ++ "' exited with status " ++ toString status ++ ": " ++ stderr
  | missingContainerId command => "'" ++ command ++ "' produced no container id"

end StackControl.Engine
