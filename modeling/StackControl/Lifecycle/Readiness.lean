import StackControl.Lifecycle.Basic

/-!
# The readiness gate

The long-running services are waited for in order, within one budget of time.  A service that
refuses is asked again after an interval, or at the deadline if that comes first; a refusal at the
deadline or after it ends the wait.  A budget beyond the range of the clock sets no deadline, so
the number of refusals of one service that are watched is bounded by a patience of the caller.
-/

namespace StackControl.Lifecycle

namespace Readiness

/-- A call of the readiness gate. -/
inductive Call
  /-- Whether an endpoint accepts a connection. -/
  | check (endpoint : Endpoint)
  | clock (request : Machine.ClockRequest)

/-- What a call is answered with. -/
abbrev Call.Answer : Call → Type
  | check _ => Bool
  | clock request => request.Answer

/-- A procedure over the calls of the readiness gate. -/
abbrev Activity := Procedure Call Call.Answer

/-- How the wait ends badly. -/
inductive Failure
  | timeout (endpoint : Endpoint)
  | stillWaiting (endpoint : Endpoint)
deriving DecidableEq, Repr

/-- The nanoseconds of a second. -/
def second : Nat := 1000000000

/-- The pause between two checks. -/
def pollInterval : Nat := second

/-- The end of the clock's range, in nanoseconds. -/
def clockRange : Nat := Nat.pow 2 63 * second

/-- The time at which a budget runs out, if the clock can tell it. -/
def deadlineOf (start budget : Nat) : Option Nat :=
  if start + budget < clockRange then some (start + budget) else none

/-- Asks whether an endpoint accepts a connection. -/
def check (endpoint : Endpoint) : ExceptT Failure Activity Bool :=
  ExceptT.lift (Procedure.call (Call.check endpoint))

/-- The time. -/
def now : ExceptT Failure Activity Nat :=
  ExceptT.lift (Procedure.call (Call.clock .now))

/-- Waits for a while. -/
def sleep (pause : Nat) : ExceptT Failure Activity Unit :=
  ExceptT.lift (Procedure.call (Call.clock (.sleep pause)))

/-- The pause after a refusal; none is left at the deadline. -/
def pauseAfterRefusal (interval : Nat) (deadline : Option Nat) (endpoint : Endpoint) :
    ExceptT Failure Activity Nat := do
  match deadline with
  | none => return interval
  | some deadline =>
    let time ← now
    if time ≥ deadline then throw (.timeout endpoint)
    return min interval (deadline - time)

/-- Asks an endpoint until it accepts, watching a number of refusals. -/
def awaitEndpoint (interval : Nat) (deadline : Option Nat) (endpoint : Endpoint) :
    Nat → ExceptT Failure Activity Unit
  | 0 => throw (.stillWaiting endpoint)
  | patience + 1 => do
    if ← check endpoint then
      return
    sleep (← pauseAfterRefusal interval deadline endpoint)
    awaitEndpoint interval deadline endpoint patience

/-- Waits for each of the endpoints, in order. -/
def awaitAll (interval : Nat) (deadline : Option Nat) (patience : Nat) :
    List Endpoint → ExceptT Failure Activity Unit
  | [] => return
  | endpoint :: rest => do
    awaitEndpoint interval deadline endpoint patience
    awaitAll interval deadline patience rest

/-- Waits for the endpoints within a budget. -/
def wait (interval budget patience : Nat) (endpoints : List Endpoint) :
    ExceptT Failure Activity Unit := do
  let start ← now
  awaitAll interval (deadlineOf start budget) patience endpoints

/-- What a failed wait means. -/
def Failure.toError (budget : Nat) : Failure → Error
  | timeout endpoint => .readinessTimeout endpoint.service endpoint.port (budget / second)
  | stillWaiting endpoint => .stillWaiting endpoint.service

end Readiness

/-- The command that asks whether an endpoint accepts a connection. -/
def reachabilityCommand (endpoint : Endpoint) : List String :=
  ["nc", "-z", "-w1", endpoint.service, toString endpoint.port.toNat]

/-- Asks inside a container whether an endpoint accepts a connection; a check that cannot be made
counts as a refusal. -/
def checkInside (container : String) (endpoint : Endpoint) : Activity Bool := do
  let result ← Procedure.call
    (Call.engine (.exec container (reachabilityCommand endpoint) false))
  match (result : Except Engine.Error Int) with
  | .ok code => return code == 0
  | .error _ => return false

/-- Answers the calls of the readiness gate from inside a container. -/
def readinessInside (container : String) : (call : Readiness.Call) → Activity call.Answer
  | .check endpoint => checkInside container endpoint
  | .clock request => Procedure.call (Call.clock request)

/-- Waits until every long-running service accepts connections, asked from inside a container. -/
def awaitReadiness (container : String) (rpcPort : UInt16) (timeoutSecs patience : Nat) :
    Flow Unit :=
  let budget := timeoutSecs * Readiness.second
  Flow.demand (Readiness.Failure.toError budget)
    ((Readiness.wait Readiness.pollInterval budget patience
      (Endpoint.longRunning rpcPort)).run.realise (readinessInside container))

end StackControl.Lifecycle
