import StackControl.Proofs.Procedure.Moments

/-!
# Runs of realised procedures

A procedure whose calls are answered by procedures over other calls runs as it does by itself, when
it is answered by what those procedures end with; the moments of such a run are those of each call,
one after the other.
-/

namespace StackControl.Procedure

variable {Call Call' : Type} {Answer : Call → Type} {Answer' : Call' → Type} {α β σ τ ε : Type}

theorem answer_of_mem_moments {answerer : Answerer Call Answer σ} {p : Procedure Call Answer α}
    {s : σ} {m : Moment Call Answer σ} (h : m ∈ p.moments answerer s) :
    m.answer = (answerer m.call m.state).1 := by
  induction p generalizing s with
  | done => cases h
  | ask call next ih =>
      rcases List.mem_cons.mp h with rfl | h
      · rfl
      · exact ih _ h

/-! ## Procedures that can fail -/

theorem run_bind_run (answerer : Answerer Call Answer σ) (p : ExceptT ε (Procedure Call Answer) α)
    (f : α → ExceptT ε (Procedure Call Answer) β) (s : σ) :
    run answerer (p >>= f).run s =
      match run answerer p.run s with
      | (.ok a, after) => run answerer (f a).run after
      | (.error e, after) => (.error e, after) := by
  simp only [ExceptT.run_bind, run_bind]
  rcases run answerer p.run s with ⟨_ | _, _⟩ <;> rfl

theorem moments_bind_run (answerer : Answerer Call Answer σ)
    (p : ExceptT ε (Procedure Call Answer) α) (f : α → ExceptT ε (Procedure Call Answer) β)
    (s : σ) :
    moments answerer (p >>= f).run s =
      moments answerer p.run s ++
        match run answerer p.run s with
        | (.ok a, after) => moments answerer (f a).run after
        | (.error _, _) => [] := by
  simp only [ExceptT.run_bind, moments_bind]
  rcases run answerer p.run s with ⟨_ | _, _⟩ <;> rfl

theorem trace_bind_run (answerer : Answerer Call Answer σ)
    (p : ExceptT ε (Procedure Call Answer) α) (f : α → ExceptT ε (Procedure Call Answer) β)
    (s : σ) :
    trace answerer (p >>= f).run s =
      trace answerer p.run s ++
        match run answerer p.run s with
        | (.ok a, after) => trace answerer (f a).run after
        | (.error _, _) => [] := by
  simp only [ExceptT.run_bind, trace_bind]
  rcases run answerer p.run s with ⟨_ | _, _⟩ <;> rfl

@[simp] theorem run_liftM_run (answerer : Answerer Call Answer σ) (p : Procedure Call Answer α)
    (s : σ) :
    run answerer (liftM p : ExceptT ε (Procedure Call Answer) α).run s =
      (.ok (run answerer p s).1, (run answerer p s).2) :=
  run_map ..

@[simp] theorem moments_liftM_run (answerer : Answerer Call Answer σ) (p : Procedure Call Answer α)
    (s : σ) :
    moments answerer (liftM p : ExceptT ε (Procedure Call Answer) α).run s =
      moments answerer p s :=
  moments_map ..

@[simp] theorem run_outcomeOf_run (answerer : Answerer Call Answer σ)
    (p : ExceptT ε (Procedure Call Answer) α) (s : σ) :
    run answerer (outcomeOf p).run s = (.ok (run answerer p.run s).1, (run answerer p.run s).2) :=
  run_map ..

@[simp] theorem trace_outcomeOf_run (answerer : Answerer Call Answer σ)
    (p : ExceptT ε (Procedure Call Answer) α) (s : σ) :
    trace answerer (outcomeOf p).run s = trace answerer p.run s := by
  rw [trace_eq_map_moments, trace_eq_map_moments]
  exact congrArg _ (moments_map ..)

theorem Only.bind_run {allowed : Call → Prop} {p : ExceptT ε (Procedure Call Answer) α}
    {f : α → ExceptT ε (Procedure Call Answer) β} (hp : p.run.Only allowed)
    (hf : ∀ a, (f a).run.Only allowed) :
    (p >>= f).run.Only allowed := by
  rw [ExceptT.run_bind]
  apply hp.bind
  intro result
  cases result with
  | ok a => exact hf a
  | error => trivial

/-! ## Calls answered by procedures -/

/-- Answers calls by carrying out procedures over other calls. -/
def answerBy (answerer : Answerer Call' Answer' σ)
    (f : (call : Call) → Procedure Call' Answer' (Answer call)) : Answerer Call Answer σ :=
  fun call s => (f call).run answerer s

variable {answerer : Answerer Call' Answer' σ}

theorem run_realise (f : (call : Call) → Procedure Call' Answer' (Answer call))
    (p : Procedure Call Answer α) (s : σ) :
    (p.realise f).run answerer s = p.run (answerBy answerer f) s := by
  induction p generalizing s with
  | done => rfl
  | ask call next ih =>
      rw [realise, run_bind, ih]
      rfl

theorem moments_realise (f : (call : Call) → Procedure Call' Answer' (Answer call))
    (p : Procedure Call Answer α) (s : σ) :
    (p.realise f).moments answerer s =
      (p.moments (answerBy answerer f) s).flatMap fun m =>
        (f m.call).moments answerer m.state := by
  induction p generalizing s with
  | done => rfl
  | ask call next ih =>
      rw [realise, moments_bind, ih]
      rfl

theorem Only.realise {allowed : Call' → Prop}
    {f : (call : Call) → Procedure Call' Answer' (Answer call)}
    (hf : ∀ call, (f call).Only allowed) (p : Procedure Call Answer α) :
    (p.realise f).Only allowed := by
  induction p with
  | done => trivial
  | ask call next ih => exact (hf call).bind ih

/-- Answers calls by carrying out procedures over other calls that carry a state along. -/
def answerWith (answerer : Answerer Call' Answer' σ)
    (f : (call : Call) → StateT τ (Procedure Call' Answer') (Answer call)) :
    Answerer Call Answer (σ × τ) :=
  fun call (s, t) =>
    let ((answer, t'), s') := ((f call).run t).run answerer s
    (answer, s', t')

theorem run_realiseWith (f : (call : Call) → StateT τ (Procedure Call' Answer') (Answer call))
    (p : Procedure Call Answer α) (s : σ) (t : τ) :
    ((p.realiseWith f).run t).run answerer s =
      (((p.run (answerWith answerer f) (s, t)).1, (p.run (answerWith answerer f) (s, t)).2.2),
        (p.run (answerWith answerer f) (s, t)).2.1) := by
  induction p generalizing s t with
  | done => rfl
  | ask call next ih =>
      rw [realiseWith, StateT.run_bind, run_bind, ih]
      rfl

theorem moments_realiseWith (f : (call : Call) → StateT τ (Procedure Call' Answer') (Answer call))
    (p : Procedure Call Answer α) (s : σ) (t : τ) :
    ((p.realiseWith f).run t).moments answerer s =
      (p.moments (answerWith answerer f) (s, t)).flatMap fun m =>
        ((f m.call).run m.state.2).moments answerer m.state.1 := by
  induction p generalizing s t with
  | done => rfl
  | ask call next ih =>
      rw [realiseWith, StateT.run_bind, moments_bind, ih]
      rfl

end StackControl.Procedure
