import StackControl.Proofs.Lifecycle.ServiceProcesses
import StackControl.Proofs.Lifecycle.Site

/-!
# Flows on a machine with files

On a machine whose files are those of a tree, a flow of a lifecycle command has the calls to the
operating system that its own calls come down to, one after the other.
-/

namespace StackControl

open Procedure (Answerer Exchange)

namespace Machine

variable {σ α : Type}

/-- A machine whose files are those of a tree and whose streams take every line; everything else is
answered by others. -/
def overTree (others : Answerer Call Call.Answer σ) : Answerer Call Call.Answer (σ × FileTree)
  | .files request, (s, tree) => ((request.perform tree).1, s, (request.perform tree).2)
  | .print stream line, (s, tree) => (.ok (), (others (.print stream line) s).2, tree)
  | call, (s, tree) => ((others call s).1, (others call s).2, tree)

/-- Launching programs leaves the files alone. -/
theorem run_overTree_of_only {others : Answerer Call Call.Answer σ} {activity : Activity α}
    (h : activity.Only fun call => ∃ launch, call = .launch launch .captured)
    (s : σ) (tree : FileTree) :
    (Procedure.run (overTree others) activity (s, tree)).2.2 = tree := by
  induction activity generalizing s with
  | done => rfl
  | ask call next ih =>
      obtain ⟨⟨launch, rfl⟩, hnext⟩ := h
      exact ih _ (hnext _) _

end Machine

namespace Lifecycle

open Machine (overTree)

variable {σ α β : Type} (others : Answerer Machine.Call Machine.Call.Answer σ) (config : Config)

/-- The site that a machine with files is for lifecycle commands. -/
def machineSite : Site ((σ × FileTree) × Reaper.ToolGate) where
  answer := onMachine (overTree others) config
  tree s := s.1.2
  files_answer _ _ := rfl
  files_tree _ _ := rfl

/-- The calls that a flow comes down to on a machine with files. -/
def machineTrace (flow : Flow α) (s : (σ × FileTree) × Reaper.ToolGate) :
    List (Exchange Machine.Call Machine.Call.Answer) :=
  Procedure.trace (overTree others) ((flow.run.realiseWith (perform config)).run s.2) s.1

theorem run_realiseWith_perform (flow : Flow α) (s : (σ × FileTree) × Reaper.ToolGate) :
    Procedure.run (overTree others) ((flow.run.realiseWith (perform config)).run s.2) s.1 =
      ((((machineSite others config).result flow s).1,
          ((machineSite others config).result flow s).2.2),
        ((machineSite others config).result flow s).2.1) :=
  Procedure.run_realiseWith ..

theorem machineTrace_eq (flow : Flow α) (s : (σ × FileTree) × Reaper.ToolGate) :
    machineTrace others config flow s =
      (machineMoments (overTree others) config ((machineSite others config).moments flow s)).map
        fun m => ⟨m.call, m.answer⟩ := by
  rw [machineTrace, Procedure.trace_eq_map_moments, Procedure.moments_realiseWith]
  rfl

theorem machineTrace_bind (flow : Flow α) (f : α → Flow β)
    (s : (σ × FileTree) × Reaper.ToolGate) :
    machineTrace others config (flow >>= f) s =
      machineTrace others config flow s ++
        match (machineSite others config).result flow s with
        | (.ok a, after) => machineTrace others config (f a) after
        | (.error _, _) => [] := by
  simp only [machineTrace_eq, Site.moments_bind]
  rcases (machineSite others config).result flow s with ⟨_ | _, _⟩
  · simp [machineMoments]
  · simp [machineMoments]

theorem moments_beside (action : Machine.Activity α) (s : (σ × FileTree) × Reaper.ToolGate) :
    Procedure.moments (overTree others) ((beside action).run s.2) s.1 =
      Procedure.moments (overTree others) action s.1 :=
  (Procedure.moments_bind ..).trans (List.append_nil _)

theorem answer_beside (action : Machine.Activity α) (s : (σ × FileTree) × Reaper.ToolGate) :
    Procedure.run (overTree others) ((beside action).run s.2) s.1 =
      (((Procedure.run (overTree others) action s.1).1, s.2),
        (Procedure.run (overTree others) action s.1).2) :=
  Procedure.run_bind ..

/-- A request to the engine comes down to what its client does for it. -/
theorem machineTrace_engine (request : Engine.Request) (s : (σ × FileTree) × Reaper.ToolGate) :
    machineTrace others config (Flow.engine request) s =
      Procedure.trace (overTree others) ((Engine.Client.mk config.engine).perform request).run
        s.1 := by
  rw [machineTrace_eq, Site.moments_engine, machineMoments, List.flatMap_singleton, perform,
    moments_beside, ← Procedure.trace_eq_map_moments]

theorem result_machineSite_engine (request : Engine.Request)
    (s : (σ × FileTree) × Reaper.ToolGate) :
    (machineSite others config).result (Flow.engine request) s =
      ((Procedure.run (overTree others)
          ((Engine.Client.mk config.engine).perform request).run s.1).1.mapError .engine,
        (Procedure.run (overTree others)
          ((Engine.Client.mk config.engine).perform request).run s.1).2, s.2) := by
  have hanswer : (machineSite others config).answer (.engine request) s = _ :=
    congrArg (fun found : (_ × Reaper.ToolGate) × σ × FileTree => (found.1.1, found.2, found.1.2))
      (answer_beside others ((Engine.Client.mk config.engine).perform request).run s)
  rw [Site.result_engine, hanswer]

/-- A request to make directories is one call. -/
theorem machineTrace_makeDirectories (toError : Fault → Error) (path : Path)
    (s : (σ × FileTree) × Reaper.ToolGate) :
    machineTrace others config
        (Flow.demand toError (Flow.files (.makeDirectories path))) s =
      [⟨.files (.makeDirectories path), ((FileTree.Edit.makeDirectories path).run s.1.2).1⟩] := rfl

theorem result_machineSite_makeDirectories (toError : Fault → Error) (path : Path)
    (s : (σ × FileTree) × Reaper.ToolGate) :
    (machineSite others config).result
        (Flow.demand toError (Flow.files (.makeDirectories path))) s =
      (((FileTree.Edit.makeDirectories path).run s.1.2).1.mapError toError,
        (s.1.1, ((FileTree.Edit.makeDirectories path).run s.1.2).2), s.2) := rfl

theorem machineTrace_write (toError : Fault → Error) (path : Path) (content : Bytes)
    (s : (σ × FileTree) × Reaper.ToolGate) :
    machineTrace others config (Flow.demand toError (Flow.files (.write path content))) s =
      [⟨.files (.write path content), ((FileTree.Edit.write path content).run s.1.2).1⟩] := rfl

theorem result_machineSite_write (toError : Fault → Error) (path : Path) (content : Bytes)
    (s : (σ × FileTree) × Reaper.ToolGate) :
    (machineSite others config).result
        (Flow.demand toError (Flow.files (.write path content))) s =
      (((FileTree.Edit.write path content).run s.1.2).1.mapError toError,
        (s.1.1, ((FileTree.Edit.write path content).run s.1.2).2), s.2) := rfl

end Lifecycle

end StackControl
