import StackControl.Proofs.Procedure.Realisation
import StackControl.Reaper.Pass

/-!
# The course of a reaping pass

A search goes through the gate of the listing tool and lists once.  A pass is a search and, if it
found something, one signal for each process that was found, in order, whatever comes of them, and
one more listing.
-/

namespace StackControl.Reaper

open Procedure (Answerer Moment)

variable {σ α β : Type} {answerer : Answerer Call Call.Answer σ} {patterns : List String}

/-- A call that makes sure of the listing tool. -/
def IsGateCall : Call → Prop
  | .locate _ | .install _ => True
  | .list _ | .terminate _ => False

/-- The moments of a search, and what it ends with. -/
inductive Search (patterns : List String) :
    List (Moment Call Call.Answer σ) → Except Error (List ProcessHandle) → Prop
  | refused {gate : List (Moment Call Call.Answer σ)} (e : ToolError)
      (hgate : ∀ m ∈ gate, IsGateCall m.call) :
      Search patterns gate (.error (.tool e))
  | listed {gate : List (Moment Call Call.Answer σ)} (s : σ)
      (answer : Except Error (List ProcessHandle)) (hgate : ∀ m ∈ gate, IsGateCall m.call) :
      Search patterns (gate ++ [⟨s, .list patterns, answer⟩]) answer

/-- The moments of a reaping pass, and what it ends with. -/
inductive Pass (patterns : List String) :
    List (Moment Call Call.Answer σ) → Except Error Report → Prop
  | failed {ms : List (Moment Call Call.Answer σ)} {e : Error}
      (hsearch : Search patterns ms (.error e)) :
      Pass patterns ms (.error e)
  | nothing {ms : List (Moment Call Call.Answer σ)} (hsearch : Search patterns ms (.ok [])) :
      Pass patterns ms (.ok ⟨[], []⟩)
  | reaped {ms signals : List (Moment Call Call.Answer σ)} {matched : List ProcessHandle} (s : σ)
      (answer : Except Error (List ProcessHandle)) (hsearch : Search patterns ms (.ok matched))
      (hmatched : matched ≠ []) (hsignals : signals.map Moment.call = matched.map Call.terminate) :
      Pass patterns (ms ++ (signals ++ [⟨s, .list patterns, answer⟩]))
        (answer.map fun relisted => ⟨matched, survivorsOf matched relisted⟩)

/-! ## Gated actions -/

theorem run_gated_bind (action : Gated α) (f : α → Gated β) (gate : ToolGate) (s : σ) :
    Procedure.run answerer ((action >>= f).run.run gate) s =
      match Procedure.run answerer (action.run.run gate) s with
      | ((.ok a, gate'), after) => Procedure.run answerer ((f a).run.run gate') after
      | ((.error e, gate'), after) => ((.error e, gate'), after) := by
  simp only [ExceptT.run_bind, StateT.run_bind, Procedure.run_bind]
  rcases Procedure.run answerer (action.run.run gate) s with ⟨⟨_ | _, _⟩, _⟩ <;> rfl

theorem moments_gated_bind (action : Gated α) (f : α → Gated β) (gate : ToolGate) (s : σ) :
    Procedure.moments answerer ((action >>= f).run.run gate) s =
      Procedure.moments answerer (action.run.run gate) s ++
        match Procedure.run answerer (action.run.run gate) s with
        | ((.ok a, gate'), after) => Procedure.moments answerer ((f a).run.run gate') after
        | ((.error _, _), _) => [] := by
  simp only [ExceptT.run_bind, StateT.run_bind, Procedure.moments_bind]
  rcases Procedure.run answerer (action.run.run gate) s with ⟨⟨_ | _, _⟩, _⟩ <;> rfl

theorem only_satisfy (gate : ToolGate) : gate.satisfy.run.Only IsGateCall := by
  have hlocate : (liftM gate.locate : ExceptT ToolError Activity Bool).run.Only IsGateCall :=
    Procedure.Only.map (Procedure.only_call.mpr trivial) _
  have hinstall : gate.install.run.Only IsGateCall := Procedure.only_call.mpr trivial
  apply Procedure.Only.bind_run hlocate
  intro present
  cases present with
  | true => trivial
  | false =>
      apply Procedure.Only.bind_run hinstall
      intro _
      apply Procedure.Only.bind_run hlocate
      intro present
      cases present <;> trivial

theorem only_ensure (gate : ToolGate) : gate.ensure.Only IsGateCall := by
  unfold ToolGate.ensure
  split
  next => trivial
  next => exact (only_satisfy gate).bind fun _ => trivial

/-- Demanding the listing tool asks for nothing else, and fails as the gate does. -/
theorem demandTool_eq (gate : ToolGate) :
    demandTool.run.run gate =
      (fun (result, after) => ((result.map fun _ => ()).mapError Error.tool, after)) <$>
        gate.ensure := by
  rw [← bind_pure_comp]
  show gate.ensure >>= _ = _
  congr 1
  funext (result, after)
  cases result <;> rfl

theorem only_demandTool (gate : ToolGate) : (demandTool.run.run gate).Only IsGateCall := by
  rw [demandTool_eq]
  exact (only_ensure gate).map _

theorem exists_of_demandTool_eq_error {gate gate' : ToolGate} {s after : σ} {e : Error}
    (h : Procedure.run answerer (demandTool.run.run gate) s = ((.error e, gate'), after)) :
    ∃ toolError, e = .tool toolError := by
  rw [demandTool_eq, Procedure.run_map] at h
  have hresult := (Prod.mk.inj (Prod.mk.inj h).1).1
  rcases hensure : (Procedure.run answerer gate.ensure s).1.1 with toolError | status
  · rw [hensure] at hresult
    exact ⟨toolError, (Except.error.inj hresult).symm⟩
  · rw [hensure] at hresult
    cases hresult

theorem run_list (gate : ToolGate) (s : σ) :
    Procedure.run answerer ((list patterns).run.run gate) s =
      (((answerer (.list patterns) s).1, gate), (answerer (.list patterns) s).2) := rfl

theorem moments_list (gate : ToolGate) (s : σ) :
    Procedure.moments answerer ((list patterns).run.run gate) s =
      [⟨s, .list patterns, (answerer (.list patterns) s).1⟩] := rfl

theorem result_relist (answerer : Answerer Call Call.Answer σ) (patterns : List String)
    (f : List ProcessHandle → α) (gate : ToolGate) (s : σ) :
    (Procedure.run answerer ((do return f (← list patterns) : Gated α).run.run gate) s).1.1 =
      (answerer (.list patterns) s).1.map f := by
  rw [run_gated_bind, run_list]
  rcases (answerer (.list patterns) s).1 with _ | _ <;> rfl

theorem moments_relist (answerer : Answerer Call Call.Answer σ) (patterns : List String)
    (f : List ProcessHandle → α) (gate : ToolGate) (s : σ) :
    Procedure.moments answerer ((do return f (← list patterns) : Gated α).run.run gate) s =
      [⟨s, .list patterns, (answerer (.list patterns) s).1⟩] := by
  rw [moments_gated_bind, run_list, moments_list]
  rcases (answerer (.list patterns) s).1 with _ | _ <;> rfl

theorem run_signalAll (answerer : Answerer Call Call.Answer σ) (handles : List ProcessHandle)
    (gate : ToolGate) (s : σ) :
    (Procedure.run answerer ((signalAll handles).run.run gate) s).1 = (.ok (), gate) := by
  induction handles generalizing s with
  | nil => rfl
  | cons handle rest ih =>
      rw [signalAll, run_gated_bind]
      exact ih _

/-- Whatever comes of the signals, they are all sent. -/
theorem calls_signalAll (answerer : Answerer Call Call.Answer σ) (handles : List ProcessHandle)
    (gate : ToolGate) (s : σ) :
    (Procedure.moments answerer ((signalAll handles).run.run gate) s).map Moment.call =
      handles.map Call.terminate := by
  induction handles generalizing s with
  | nil => rfl
  | cons handle rest ih =>
      rw [signalAll, moments_gated_bind, List.map_append]
      exact congrArg _ (ih _)

/-! ## Searches and passes -/

theorem search_findMatching (answerer : Answerer Call Call.Answer σ) (patterns : List String)
    (gate : ToolGate) (s : σ) :
    Search patterns (Procedure.moments answerer ((findMatching patterns).run.run gate) s)
      (Procedure.run answerer ((findMatching patterns).run.run gate) s).1.1 := by
  rw [findMatching, run_gated_bind, moments_gated_bind]
  have hgate (m : Moment Call Call.Answer σ)
      (hm : m ∈ Procedure.moments answerer (demandTool.run.run gate) s) : IsGateCall m.call :=
    (only_demandTool gate).mem_moments hm
  rcases hdemand : Procedure.run answerer (demandTool.run.run gate) s with
    ⟨⟨e | _, gate'⟩, after⟩
  · obtain ⟨toolError, rfl⟩ := exists_of_demandTool_eq_error hdemand
    rw [List.append_nil]
    exact .refused toolError hgate
  · dsimp only
    rw [run_list, moments_list]
    exact .listed after _ hgate

theorem killMatching_eq (patterns : List String) :
    killMatching patterns = findMatching patterns >>= fun matched =>
      if matched.isEmpty then pure ⟨[], []⟩
      else do
        signalAll matched
        let relisted ← list patterns
        return ⟨matched, survivorsOf matched relisted⟩ := by
  rw [findMatching, bind_assoc]
  rfl

theorem pass_killMatching (answerer : Answerer Call Call.Answer σ) (patterns : List String)
    (gate : ToolGate) (s : σ) :
    Pass patterns (Procedure.moments answerer ((killMatching patterns).run.run gate) s)
      (Procedure.run answerer ((killMatching patterns).run.run gate) s).1.1 := by
  have hsearch := search_findMatching answerer patterns gate s
  rw [killMatching_eq, run_gated_bind, moments_gated_bind]
  rcases hfind : Procedure.run answerer ((findMatching patterns).run.run gate) s with
    ⟨⟨e | matched, gate'⟩, after⟩
  · rw [hfind] at hsearch
    rw [List.append_nil]
    exact .failed hsearch
  · rw [hfind] at hsearch
    dsimp only
    by_cases hmatched : matched = []
    · subst hmatched
      rw [List.isEmpty_nil, if_pos rfl]
      have hnothing : Pass patterns _ _ := .nothing hsearch
      rwa [← List.append_nil (Procedure.moments _ _ _)] at hnothing
    · rw [if_neg (by simpa using hmatched), run_gated_bind, moments_gated_bind]
      have hresult := run_signalAll answerer matched gate' after
      have hsignals := calls_signalAll answerer matched gate' after
      rcases hrun : Procedure.run answerer ((signalAll matched).run.run gate') after with
        ⟨result, after'⟩
      rw [hrun] at hresult
      cases hresult
      dsimp only
      rw [result_relist answerer patterns
        (fun relisted => Report.mk matched (survivorsOf matched relisted)), moments_relist]
      exact .reaped after' _ hsearch hmatched hsignals

end StackControl.Reaper
