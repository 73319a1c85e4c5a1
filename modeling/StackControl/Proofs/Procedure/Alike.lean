import StackControl.Proofs.Procedure.Moments

/-!
# Answers that make no difference

A procedure may go on in the same way whatever some of its calls are answered.  Answerers that
differ in those answers only lead it through the same calls to the same value.
-/

namespace StackControl.Procedure

variable {Call : Type} {Answer : Call → Type} {α σ τ : Type} {ignored : Call → Prop}

/-- How a procedure goes on does not depend on what some calls are answered. -/
def Ignores (ignored : Call → Prop) : Procedure Call Answer α → Prop
  | done _ => True
  | ask call next =>
    (ignored call → ∀ answer answer', next answer = next answer') ∧
      ∀ answer, (next answer).Ignores ignored

/-- Two answerers that answer alike in related states, except to some calls, and that every call
leaves in related states. -/
structure Alike (ignored : Call → Prop) (related : σ → τ → Prop)
    (left : Answerer Call Answer σ) (right : Answerer Call Answer τ) : Prop where
  answer_eq : ∀ {s t}, related s t → ∀ call, ¬ignored call → (left call s).1 = (right call t).1
  step : ∀ {s t}, related s t → ∀ call, related (left call s).2 (right call t).2

variable {related : σ → τ → Prop} {left : Answerer Call Answer σ} {right : Answerer Call Answer τ}

/-- A procedure cannot tell answerers apart that differ in what it ignores. -/
theorem Alike.run_eq (h : Alike ignored related left right) {p : Procedure Call Answer α}
    (hp : p.Ignores ignored) {s : σ} {t : τ} (hrelated : related s t) :
    (p.run left s).1 = (p.run right t).1 ∧
      related (p.run left s).2 (p.run right t).2 ∧
      (p.moments left s).map Moment.call = (p.moments right t).map Moment.call := by
  induction p generalizing s t with
  | done value => exact ⟨rfl, hrelated, rfl⟩
  | ask call next ih =>
      have hnext : next (left call s).1 = next (right call t).1 := by
        by_cases hignored : ignored call
        · exact hp.1 hignored _ _
        · rw [h.answer_eq hrelated call hignored]
      obtain ⟨hvalue, hafter, hcalls⟩ := ih (left call s).1 (hp.2 _) (h.step hrelated call)
      simp only [run, moments, List.map_cons, ← hnext]
      exact ⟨hvalue, hafter, by rw [hcalls]⟩

end StackControl.Procedure
