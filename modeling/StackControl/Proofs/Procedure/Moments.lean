import StackControl.Procedure

/-!
# The moments of a run

A run makes its calls one after the other, each in a state and with an answer.  The moments of a
run keep the three together, so that what holds at a call can be said of the state in which the
call is made.  What a procedure may call at all is a matter of the procedure alone, whoever
answers it.
-/

namespace StackControl.Procedure

variable {Call : Type} {Answer : Call → Type} {α β σ : Type}

/-- One call of a run: the state in which it is made, and its answer. -/
structure Moment (Call : Type) (Answer : Call → Type) (σ : Type) where
  state : σ
  call : Call
  answer : Answer call

/-- The moments of a run, in order. -/
def moments (answerer : Answerer Call Answer σ) :
    Procedure Call Answer α → σ → List (Moment Call Answer σ)
  | done _, _ => []
  | ask call next, s =>
    ⟨s, call, (answerer call s).1⟩ ::
      (next (answerer call s).1).moments answerer (answerer call s).2

theorem moments_bind
    (answerer : Answerer Call Answer σ) (p : Procedure Call Answer α)
    (f : α → Procedure Call Answer β) (s : σ) :
    (p >>= f).moments answerer s =
      p.moments answerer s ++
        (f (p.run answerer s).1).moments answerer (p.run answerer s).2 := by
  induction p generalizing s with
  | done => rfl
  | ask call next ih => simp only [ask_bind, moments, run, ih, List.cons_append]

@[simp] theorem run_map
    (answerer : Answerer Call Answer σ) (f : α → β) (p : Procedure Call Answer α) (s : σ) :
    (f <$> p).run answerer s = (f (p.run answerer s).1, (p.run answerer s).2) := by
  rw [← bind_pure_comp, run_bind]
  rfl

@[simp] theorem moments_map
    (answerer : Answerer Call Answer σ) (f : α → β) (p : Procedure Call Answer α) (s : σ) :
    (f <$> p).moments answerer s = p.moments answerer s := by
  rw [← bind_pure_comp, moments_bind]
  exact List.append_nil _

/-- The trace forgets the states. -/
theorem trace_eq_map_moments
    (answerer : Answerer Call Answer σ) (p : Procedure Call Answer α) (s : σ) :
    p.trace answerer s = (p.moments answerer s).map fun m => ⟨m.call, m.answer⟩ := by
  induction p generalizing s with
  | done => rfl
  | ask call next ih => simp only [trace, moments, ih, List.map_cons]

/-! ## What a procedure may call -/

/-- Every call that a procedure can come to make is allowed. -/
def Only (allowed : Call → Prop) : Procedure Call Answer α → Prop
  | done _ => True
  | ask call next => allowed call ∧ ∀ answer, (next answer).Only allowed

@[simp] theorem only_done (allowed : Call → Prop) (value : α) :
    (done value : Procedure Call Answer α).Only allowed := trivial

@[simp] theorem only_call {allowed : Call → Prop} {c : Call} :
    (call c : Procedure Call Answer _).Only allowed ↔ allowed c := by
  simp [call, Only]

theorem Only.bind
    {allowed : Call → Prop} {p : Procedure Call Answer α}
    {f : α → Procedure Call Answer β}
    (hp : p.Only allowed) (hf : ∀ a, (f a).Only allowed) :
    (p >>= f).Only allowed := by
  induction p with
  | done value => exact hf value
  | ask call next ih => exact ⟨hp.1, fun answer => ih answer (hp.2 answer)⟩

theorem Only.map
    {allowed : Call → Prop} {p : Procedure Call Answer α}
    (hp : p.Only allowed) (f : α → β) :
    (f <$> p).Only allowed := by
  rw [← bind_pure_comp]
  exact hp.bind fun _ => trivial

theorem Only.mono
    {allowed allowed' : Call → Prop} {p : Procedure Call Answer α}
    (hp : p.Only allowed) (h : ∀ call, allowed call → allowed' call) :
    p.Only allowed' := by
  induction p with
  | done => trivial
  | ask call next ih => exact ⟨h call hp.1, fun answer => ih answer (hp.2 answer)⟩

theorem Only.mem_moments
    {allowed : Call → Prop} {p : Procedure Call Answer α}
    (hp : p.Only allowed) {answerer : Answerer Call Answer σ} {s : σ}
    {m : Moment Call Answer σ} (hm : m ∈ p.moments answerer s) :
    allowed m.call := by
  induction p generalizing s with
  | done => cases hm
  | ask call next ih =>
      rcases List.mem_cons.mp hm with rfl | hm
      · exact hp.1
      · exact ih _ (hp.2 _) hm

end StackControl.Procedure
