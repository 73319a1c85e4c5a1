import StackControl.Runner

/-!
# Provisioning test accounts

Before the service starts, one unit is provisioned and waited for.  A larger batch is then started
without waiting; whatever comes of it does not reach the service.
-/

namespace StackControl.Provision

/-- How provisioning fails. -/
inductive Error
  | runner (error : Runner.Error)
  | spawn (command : String) (source : LaunchFault)
  | failed (command : String) (status : Int)
deriving DecidableEq, Repr

/-- The text of a provisioning error. -/
def Error.message : Error → String
  | runner error => error.message
  | spawn command source =>
    "failed to start provisioning '" ++ command ++ "': " ++ source.message
  | failed command status =>
    "provisioning '" ++ command ++ "' exited with status " ++ toString status

/-- A request to provision units. -/
inductive Request
  /-- Waits until the units are provisioned. -/
  | blocking (count : UInt32)
  /-- Starts provisioning and does not wait. -/
  | detached (count : UInt32)
deriving DecidableEq

/-- What a request is answered with. -/
abbrev Answer (_ : Request) : Type := Except Error Unit

/-- A procedure over provisioning requests. -/
abbrev Activity := Procedure Request Answer

/-- Makes a provisioning request. -/
def request (r : Request) : ExceptT Error Activity Unit :=
  ExceptT.mk (Procedure.call r)

/-- What was provisioned. -/
structure Report where
  synchronous : UInt32
  /-- The units of the batch, if it started. -/
  background : Option UInt32
deriving DecidableEq, Repr

/-- Provisions one unit and then starts a batch of `total`, unless it is empty.  A failure of the
one unit is an error; a batch that does not start is only left out of the report. -/
def provision (total : UInt32) : ExceptT Error Activity Report := do
  request (.blocking 1)
  if total = 0 then
    return ⟨1, none⟩
  match ← outcomeOf (request (.detached total)) with
  | .ok () => return ⟨1, some total⟩
  | .error _ => return ⟨1, none⟩

/-- The variable that provisioning processes are marked with, and its value. -/
def marker : String × String := ("STACKCTL_PROVISIONING", "1")

/-- The configured command with the number of units appended. -/
def lineFor (raw : String) (count : UInt32) : Except Error CommandLine :=
  match Runner.commandLine raw with
  | .ok line => .ok (line.append [toString count.toNat])
  | .error e => .error (.runner e)

/-- The launch of a provisioning command. -/
def launchOf (line : CommandLine) : Launch :=
  ⟨line.program, line.arguments, [marker]⟩

/-- Provisions units with the configured command, which is read only now. -/
def perform (raw : String) : (request : Request) → Machine.Activity (Answer request)
  | .blocking count => ExceptT.run do
    let line ← ExceptT.mk (pure (lineFor raw count))
    match ← Machine.launch (launchOf line) .attached with
    | .error fault => throw (.spawn line.display fault)
    | .ok finished =>
      if finished.status.code != 0 then
        throw (.failed line.display finished.status.code)
  | .detached count => ExceptT.run do
    let line ← ExceptT.mk (pure (lineFor raw count))
    match ← Machine.spawn (launchOf line) with
    | .error fault => throw (.spawn line.display fault)
    | .ok () => return

end StackControl.Provision
