import StackControl.Reaper.ToolGate

/-!
# Finding and terminating processes

A reaping pass lists the processes that some pattern selects, sends one termination signal to each,
and lists again to tell which of them are still there.  It does not wait, and a signal that fails
does not keep the others from being sent.
-/

namespace StackControl.Reaper

/-- What a reaping pass found and what it left. -/
structure Report where
  matched : List ProcessHandle
  /-- The processes still present after they were signalled. -/
  survivors : List ProcessHandle
deriving DecidableEq, Repr

/-- Whether nothing was there to reap. -/
def Report.isNoop (report : Report) : Bool :=
  report.matched.isEmpty

/-- An action behind the tool gate, which is kept whether or not the action succeeds. -/
abbrev Gated := ExceptT Error (StateT ToolGate Activity)

/-- Demands the listing tool. -/
def demandTool : Gated Unit :=
  ExceptT.mk fun gate => do
    let (result, gate) ← gate.ensure
    match result with
    | .ok _ => return (.ok (), gate)
    | .error e => return (.error (.tool e), gate)

/-- Lists the processes that some pattern selects. -/
def list (patterns : List String) : Gated (List ProcessHandle) :=
  ExceptT.mk (StateT.lift (Procedure.call (Call.list patterns)))

/-- Sends the termination signal to a process; what comes of it is not followed up. -/
def signal (handle : ProcessHandle) : Gated Unit :=
  ExceptT.mk fun gate => do
    let _ ← Procedure.call (Call.terminate handle)
    return (.ok (), gate)

/-- Sends the termination signal to each of the processes, in order. -/
def signalAll : List ProcessHandle → Gated Unit
  | [] => return
  | handle :: rest => do
    signal handle
    signalAll rest

/-- The processes that some pattern selects. -/
def findMatching (patterns : List String) : Gated (List ProcessHandle) := do
  demandTool
  list patterns

/-- Of a second listing, the processes that the first one had. -/
def survivorsOf (matched relisted : List ProcessHandle) : List ProcessHandle :=
  relisted.filter fun handle => matched.any (·.pid == handle.pid)

/-- Signals every process that some pattern selects, and reports those that are still there. -/
def killMatching (patterns : List String) : Gated Report := do
  demandTool
  let matched ← list patterns
  if matched.isEmpty then
    return ⟨[], []⟩
  signalAll matched
  let relisted ← list patterns
  return ⟨matched, survivorsOf matched relisted⟩

end StackControl.Reaper
