/-!
# Lifecycle commands

What an operator can ask for, by the names that are typed.
-/

namespace StackControl.Lifecycle

/-- A lifecycle command. -/
inductive Command
  | up (rebuild : Bool)
  | down
  | destroy
  | status
  /-- Writes the logs of every service into a directory. -/
  | logs (output : Option String)
  | shell
  /-- Runs the tests, one by one when files are named. -/
  | test (files : List String)
  | start
  /-- Stops the service; from the host only inside the container it is forwarded to. -/
  | stop (forward : Bool)
deriving DecidableEq, Repr

namespace Command

/-- The name of a command as it is typed. -/
def name : Command → String
  | up _ => "up"
  | down => "down"
  | destroy => "destroy"
  | status => "status"
  | logs _ => "logs"
  | shell => "shell"
  | test _ => "test"
  | start => "start"
  | stop _ => "stop"

/-- What follows the name when a command is forwarded into the container. -/
def forwardedArguments : Command → List String
  | test files => files
  | _ => []

end Command

end StackControl.Lifecycle
