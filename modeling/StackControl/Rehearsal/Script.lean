import StackControl.Lifecycle.Readiness
import StackControl.Reaper.Pass

/-!
# Scripted collaborators

Small scripts answer the calls of the readiness gate, of the reaper and of the provisioner with
prepared answers, and log what was asked.
-/

namespace StackControl.Rehearsal

/-- Endpoints that give prepared answers and then accept, with an exact clock. -/
structure EndpointScript where
  answers : List Bool
  time : Nat := 0
  /-- The endpoints checked, the last one first. -/
  checked : List Endpoint := []

/-- Answers a call of the readiness gate. -/
def EndpointScript.perform :
    (call : Lifecycle.Readiness.Call) → EndpointScript → call.Answer × EndpointScript
  | .check endpoint, s =>
    (s.answers.headD true,
      { s with answers := s.answers.tail, checked := endpoint :: s.checked })
  | .clock .now, s => (s.time, s)
  | .clock (.sleep pause), s => ((), { s with time := s.time + pause })

/-- The next of a list of answers, the last of which repeats; an empty list answers as usual. -/
def nextRepeating {α : Type} (usual : α) : List α → α × List α
  | [] => (usual, [])
  | [last] => (last, [last])
  | first :: rest => (first, rest)

/-- A registry of processes and an environment of tools that give prepared answers. -/
structure ReaperScript where
  listings : List (Except Reaper.Error (List Reaper.ProcessHandle))
  located : List Bool
  installs : List (Except Reaper.ToolError Unit)
  signalFailures : List (Nat × Reaper.Error)
  /-- The calls so far, the last one first. -/
  calls : List Reaper.Call := []

/-- Answers a call of the reaper. -/
def ReaperScript.perform : (call : Reaper.Call) → ReaperScript → call.Answer × ReaperScript
  | .locate binary, s =>
    let (found, rest) := nextRepeating true s.located
    (found, { s with located := rest, calls := .locate binary :: s.calls })
  | .install package, s =>
    let (result, rest) := nextRepeating (.ok ()) s.installs
    (result, { s with installs := rest, calls := .install package :: s.calls })
  | .list patterns, s =>
    let (result, rest) := nextRepeating (.ok []) s.listings
    (result, { s with listings := rest, calls := .list patterns :: s.calls })
  | .terminate handle, s =>
    let result := match s.signalFailures.lookup handle.pid.toNat with
      | some error => .error error
      | none => .ok ()
    (result, { s with calls := .terminate handle :: s.calls })

/-- A provisioner whose requests can be made to fail. -/
structure ProvisionScript where
  blockingFailure : Option Provision.Error
  detachedFailure : Option Provision.Error
  /-- The requests so far, the last one first. -/
  requests : List Provision.Request := []

/-- Answers a provisioning request. -/
def ProvisionScript.perform (request : Provision.Request) (s : ProvisionScript) :
    Except Provision.Error Unit × ProvisionScript :=
  let failure := match request with
    | .blocking _ => s.blockingFailure
    | .detached _ => s.detachedFailure
  let result := match failure with
    | some error => .error error
    | none => .ok ()
  (result, { s with requests := request :: s.requests })

end StackControl.Rehearsal
