import StackControl.Lifecycle.Readiness
import StackControl.Proofs.Procedure.Realisation

/-!
# Passing the readiness gate

A wait that ends well has asked each endpoint, in order, until it accepted: some refusals, one
acceptance, and then the next endpoint.  Nothing but the clock is used in between.
-/

namespace StackControl.Lifecycle.Readiness

open Procedure (Answerer Moment)

variable {σ : Type} {answerer : Answerer Call Call.Answer σ} {endpoint : Endpoint} {s : σ}

/-- The endpoint that was checked at a moment, and whether it accepted. -/
def check? : Moment Call Call.Answer σ → Option (Endpoint × Bool)
  | ⟨_, .check endpoint, accepted⟩ => some (endpoint, accepted)
  | ⟨_, .clock _, _⟩ => none

/-- The checks of a wait with their answers, in order. -/
def checks (ms : List (Moment Call Call.Answer σ)) : List (Endpoint × Bool) :=
  ms.filterMap check?

/-- The answers by which each of the endpoints, in order, refuses some times and then accepts. -/
inductive Accepted : List Endpoint → List (Endpoint × Bool) → Prop
  | nil : Accepted [] []
  | cons (endpoint : Endpoint) (refusals : Nat) {endpoints : List Endpoint}
      {answers : List (Endpoint × Bool)} (haccepted : Accepted endpoints answers) :
      Accepted (endpoint :: endpoints)
        (List.replicate refusals (endpoint, false) ++ (endpoint, true) :: answers)

/-! ## Steps without a check -/

/-- A call that uses the clock. -/
def IsClock : Call → Prop
  | .clock _ => True
  | .check _ => False

theorem checks_append (ms ms' : List (Moment Call Call.Answer σ)) :
    checks (ms ++ ms') = checks ms ++ checks ms' :=
  List.filterMap_append

theorem checks_eq_nil {ms : List (Moment Call Call.Answer σ)} (h : ∀ m ∈ ms, IsClock m.call) :
    checks ms = [] := by
  apply List.filterMap_eq_nil_iff.mpr
  intro m hm
  have hclock := h m hm
  obtain ⟨state, call, answer⟩ := m
  cases call with
  | check => cases hclock
  | clock => rfl

theorem only_now : now.run.Only IsClock :=
  (Procedure.only_call.mpr trivial).map _

theorem only_pauseAfterRefusal_now (interval : Nat) (deadline : Option Nat)
    (endpoint : Endpoint) :
    (pauseAfterRefusal interval deadline endpoint).run.Only fun call => call = .clock .now := by
  have hnow : now.run.Only fun call => call = .clock .now := by
    apply Procedure.Only.map
    exact Procedure.only_call.mpr rfl
  unfold pauseAfterRefusal
  split
  · trivial
  · apply hnow.bind_run
    intro time
    split <;> trivial

theorem only_pauseAfterRefusal (interval : Nat) (deadline : Option Nat) (endpoint : Endpoint) :
    (pauseAfterRefusal interval deadline endpoint).run.Only IsClock := by
  apply (only_pauseAfterRefusal_now interval deadline endpoint).mono
  rintro call rfl
  trivial

/-! ## Waits -/

theorem run_check (answerer : Answerer Call Call.Answer σ) (endpoint : Endpoint) (s : σ) :
    Procedure.run answerer (check endpoint).run s =
      (.ok (answerer (.check endpoint) s).1, (answerer (.check endpoint) s).2) := rfl

theorem moments_check (answerer : Answerer Call Call.Answer σ) (endpoint : Endpoint) (s : σ) :
    Procedure.moments answerer (check endpoint).run s =
      [⟨s, .check endpoint, (answerer (.check endpoint) s).1⟩] := rfl

/-- What follows a refusal, if the wait goes on, is a pause and more checks. -/
theorem exists_of_pause {interval : Nat} {deadline : Option Nat}
    {rest : ExceptT Failure Activity Unit} {after : σ}
    (h : Procedure.run answerer (do
        sleep (← pauseAfterRefusal interval deadline endpoint)
        rest).run s = (.ok (), after)) :
    ∃ awake, Procedure.run answerer rest.run awake = (.ok (), after) ∧
      checks (Procedure.moments answerer (do
          sleep (← pauseAfterRefusal interval deadline endpoint)
          rest).run s) =
        checks (Procedure.moments answerer rest.run awake) := by
  have hpaused : checks (Procedure.moments answerer
      (pauseAfterRefusal interval deadline endpoint).run s) = [] :=
    checks_eq_nil fun _ hm => (only_pauseAfterRefusal interval deadline endpoint).mem_moments hm
  rw [Procedure.run_bind_run] at h
  rw [Procedure.moments_bind_run, checks_append, hpaused, List.nil_append]
  rcases hpause : Procedure.run answerer (pauseAfterRefusal interval deadline endpoint).run s with
    ⟨e | pause, paused⟩
  · rw [hpause] at h
    cases h
  · rw [hpause] at h
    exact ⟨_, h, rfl⟩

/-- An endpoint that was waited for with success refused some times and then accepted. -/
theorem checks_awaitEndpoint {interval : Nat} {deadline : Option Nat} {patience : Nat} {s after : σ}
    (h : Procedure.run answerer (awaitEndpoint interval deadline endpoint patience).run s =
      (.ok (), after)) :
    ∃ refusals, checks (Procedure.moments answerer
        (awaitEndpoint interval deadline endpoint patience).run s) =
      List.replicate refusals (endpoint, false) ++ [(endpoint, true)] := by
  induction patience generalizing s with
  | zero => cases h
  | succ patience ih =>
      rw [awaitEndpoint, Procedure.run_bind_run, run_check] at h
      rw [awaitEndpoint, Procedure.moments_bind_run, run_check, moments_check, checks_append]
      dsimp only at h ⊢
      cases haccepted : (answerer (.check endpoint) s).1 with
      | true => exact ⟨0, rfl⟩
      | false =>
          rw [haccepted] at h
          obtain ⟨awake, hrest, hchecks⟩ := exists_of_pause h
          obtain ⟨refusals, hrefusals⟩ := ih hrest
          refine ⟨refusals + 1, ?_⟩
          rw [List.replicate_succ, List.cons_append, ← hrefusals, ← hchecks]
          rfl

theorem accepted_awaitAll {interval : Nat} {deadline : Option Nat} {patience : Nat}
    {endpoints : List Endpoint} {s after : σ}
    (h : Procedure.run answerer (awaitAll interval deadline patience endpoints).run s =
      (.ok (), after)) :
    Accepted endpoints (checks (Procedure.moments answerer
      (awaitAll interval deadline patience endpoints).run s)) := by
  induction endpoints generalizing s with
  | nil => exact .nil
  | cons endpoint rest ih =>
      rw [awaitAll, Procedure.run_bind_run] at h
      rw [awaitAll, Procedure.moments_bind_run, checks_append]
      rcases hfirst : Procedure.run answerer
        (awaitEndpoint interval deadline endpoint patience).run s with ⟨e | _, between⟩
      · rw [hfirst] at h
        cases h
      · rw [hfirst] at h
        obtain ⟨refusals, hrefusals⟩ := checks_awaitEndpoint hfirst
        rw [hrefusals, List.append_assoc]
        exact .cons endpoint refusals (ih h)

/-- After a wait that ended well every endpoint has accepted, one after the other. -/
theorem accepted_wait {interval budget patience : Nat} {endpoints : List Endpoint} {s after : σ}
    (h : Procedure.run answerer (wait interval budget patience endpoints).run s =
      (.ok (), after)) :
    Accepted endpoints (checks (Procedure.moments answerer
      (wait interval budget patience endpoints).run s)) := by
  have hnow : checks (Procedure.moments answerer now.run s) = [] :=
    checks_eq_nil fun _ hm => only_now.mem_moments hm
  rw [wait, Procedure.run_bind_run] at h
  rw [wait, Procedure.moments_bind_run, checks_append, hnow]
  exact accepted_awaitAll h

end StackControl.Lifecycle.Readiness
