import StackControl.Reaper.Basic

/-!
# The tool gate

A gate makes sure that a program is available and installs its package if it is not.  Once this has
succeeded the gate stays open and asks nothing more; a failure is not remembered, so the next
attempt starts again.
-/

namespace StackControl.Reaper

/-- How a program came to be available. -/
inductive ToolStatus
  | alreadyPresent
  | installed
deriving DecidableEq, Repr

/-- A program, the package that provides it, and what has come of demanding it. -/
structure ToolGate where
  binary : String
  package : String
  outcome : Option ToolStatus
deriving DecidableEq

namespace ToolGate

/-- The gate of the process listing tool. -/
def processLister : ToolGate :=
  ⟨"ps", "procps", none⟩

/-- Asks whether the program can be found. -/
def locate (gate : ToolGate) : Activity Bool :=
  Procedure.call (Call.locate gate.binary)

/-- Asks for the package to be installed. -/
def install (gate : ToolGate) : ExceptT ToolError Activity Unit :=
  ExceptT.mk (Procedure.call (Call.install gate.package))

/-- Looks for the program, and installs its package and looks again if it is missing. -/
def satisfy (gate : ToolGate) : ExceptT ToolError Activity ToolStatus := do
  if ← gate.locate then
    return .alreadyPresent
  gate.install
  if ← gate.locate then
    return .installed
  throw (.stillMissing gate.binary gate.package)

/-- The gate after an attempt: a success is remembered. -/
def after (gate : ToolGate) : Except ToolError ToolStatus → ToolGate
  | .ok status => { gate with outcome := some status }
  | .error _ => gate

/-- Demands the program. -/
def ensure (gate : ToolGate) : Activity (Except ToolError ToolStatus × ToolGate) :=
  match gate.outcome with
  | some status => return (.ok status, gate)
  | none => do
    let result ← gate.satisfy.run
    return (result, gate.after result)

end ToolGate

end StackControl.Reaper
