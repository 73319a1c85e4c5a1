import StackControl.Engine.Client
import StackControl.Lifecycle.Dispatch
import StackControl.Reaper.Realisation

/-!
# Lifecycle commands on a machine

The calls of a lifecycle command come down to calls to the operating system: the engine is driven
by its command line, commands are run as programs, and processes are found with the listing tool,
behind a gate that stays open once it is.
-/

namespace StackControl.Lifecycle

/-- An answer that leaves the tool gate alone. -/
def beside {α : Type} (action : Machine.Activity α) : StateT Reaper.ToolGate Machine.Activity α :=
  StateT.lift action

/-- A reaping action on a machine. -/
def reap {α : Type} (action : Reaper.Gated α) :
    StateT Reaper.ToolGate Machine.Activity (Except Reaper.Error α) :=
  fun gate => (action.run.run gate).realise Reaper.perform

/-- Answers a call of a lifecycle command. -/
def perform (config : Config) :
    (call : Call) → StateT Reaper.ToolGate Machine.Activity call.Answer
  | .engine request => beside ((Engine.Client.mk config.engine).perform request).run
  | .runner request => beside (Runner.perform request).run
  | .provision request => beside (Provision.perform config.provisionCommand request)
  | .processes (.find patterns) => reap (Reaper.findMatching patterns)
  | .processes (.kill patterns) => reap (Reaper.killMatching patterns)
  | .files request => beside (Procedure.call (Machine.Call.files request))
  | .clock request => beside (Procedure.call (Machine.Call.clock request))
  | .print stream line => beside (Procedure.call (Machine.Call.print stream line))

/-- Carries out a command on a machine, with a tool gate of its own. -/
def handleOnMachine (context : Context) (command : Command) :
    Machine.Activity (Except Error Outcome) := do
  let (result, _) ←
    ((handle context command).run.realiseWith (perform context.config)).run
      Reaper.ToolGate.processLister
  return result

end StackControl.Lifecycle
