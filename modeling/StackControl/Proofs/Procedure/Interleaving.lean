import Mathlib.Logic.Function.Basic
import StackControl.Proofs.Procedure.Moments

/-!
# Procedures side by side

Procedures can be carried out side by side over one state: they take turns, and each turn is one
call.  A schedule says whose turn it is; the turn of a procedure that has ended passes.  What holds
along every schedule follows from what one call preserves.
-/

namespace StackControl.Procedure

/-- Procedures that share a state: what is left of each, and the state. -/
structure SideBySide (ι Call : Type) (Answer : Call → Type) (α σ : Type) where
  rest : ι → Procedure Call Answer α
  state : σ

namespace SideBySide

variable {ι Call : Type} {Answer : Call → Type} {α σ : Type} {answerer : Answerer Call Answer σ}
  {all : SideBySide ι Call Answer α σ} {schedule : List ι} {i : ι}

/-- The moment of a call that is made now. -/
def momentOf (answerer : Answerer Call Answer σ) (all : SideBySide ι Call Answer α σ)
    (call : Call) : Moment Call Answer σ :=
  ⟨all.state, call, (answerer call all.state).1⟩

/-- The moment of a procedure's next call, if it has not ended. -/
def next? (answerer : Answerer Call Answer σ) (all : SideBySide ι Call Answer α σ) (i : ι) :
    Option (Moment Call Answer σ) :=
  match all.rest i with
  | done _ => none
  | ask call _ => some (all.momentOf answerer call)

theorem next?_of_ask {call : Call} {next : Answer call → Procedure Call Answer α}
    (h : all.rest i = ask call next) :
    all.next? answerer i = some (all.momentOf answerer call) := by
  rw [next?, h]

theorem exists_of_next? {m : Moment Call Answer σ} (h : all.next? answerer i = some m) :
    ∃ call next, all.rest i = ask call next ∧ all.momentOf answerer call = m := by
  rcases hrest : all.rest i with value | ⟨call, next⟩
  · simp [next?, hrest] at h
  · rw [next?_of_ask hrest] at h
    exact ⟨call, next, rfl, Option.some.inj h⟩

/-- No procedure has a call left to make. -/
def Ended (all : SideBySide ι Call Answer α σ) : Prop :=
  ∀ i, ∃ value, all.rest i = done value

theorem ended_iff (answerer : Answerer Call Answer σ) :
    all.Ended ↔ ∀ i, (all.next? answerer i).isNone = true := by
  refine forall_congr' fun i => ?_
  rcases hrest : all.rest i with value | ⟨call, next⟩
  · simp [next?, hrest]
  · simp [next?_of_ask hrest]

variable [DecidableEq ι]

/-- One procedure has made a call, and goes on from the answer. -/
def answered (answerer : Answerer Call Answer σ) (all : SideBySide ι Call Answer α σ) (i : ι)
    (call : Call) (next : Answer call → Procedure Call Answer α) :
    SideBySide ι Call Answer α σ where
  rest := Function.update all.rest i (next (answerer call all.state).1)
  state := (answerer call all.state).2

/-- A procedure takes its turn. -/
def turn (answerer : Answerer Call Answer σ) (all : SideBySide ι Call Answer α σ) (i : ι) :
    SideBySide ι Call Answer α σ :=
  match all.rest i with
  | done _ => all
  | ask call next => all.answered answerer i call next

/-- What is left after the turns of a schedule. -/
def after (answerer : Answerer Call Answer σ) (all : SideBySide ι Call Answer α σ)
    (schedule : List ι) : SideBySide ι Call Answer α σ :=
  schedule.foldl (turn answerer) all

/-- The moments of a schedule, each with the procedure that makes the call. -/
def moments (answerer : Answerer Call Answer σ) :
    SideBySide ι Call Answer α σ → List ι → List (ι × Moment Call Answer σ)
  | _, [] => []
  | all, i :: schedule =>
    (all.next? answerer i).toList.map (i, ·) ++ (all.turn answerer i).moments answerer schedule

@[simp] theorem rest_answered_self (call : Call) (next : Answer call → Procedure Call Answer α) :
    (all.answered answerer i call next).rest i = next (answerer call all.state).1 :=
  Function.update_self ..

theorem rest_answered_of_ne {j : ι} (h : j ≠ i) (call : Call)
    (next : Answer call → Procedure Call Answer α) :
    (all.answered answerer i call next).rest j = all.rest j :=
  Function.update_of_ne h ..

theorem turn_of_ask {call : Call} {next : Answer call → Procedure Call Answer α}
    (h : all.rest i = ask call next) : all.turn answerer i = all.answered answerer i call next := by
  rw [turn, h]

theorem moments_cons_of_done {value : α} (h : all.rest i = done value) :
    all.moments answerer (i :: schedule) = all.moments answerer schedule := by
  simp [moments, next?, turn, h]

theorem after_cons_of_done {value : α} (h : all.rest i = done value) :
    all.after answerer (i :: schedule) = all.after answerer schedule := by
  simp [after, turn, h]

theorem moments_cons_of_ask {call : Call} {next : Answer call → Procedure Call Answer α}
    (h : all.rest i = ask call next) :
    all.moments answerer (i :: schedule) =
      (i, all.momentOf answerer call) ::
        (all.answered answerer i call next).moments answerer schedule := by
  simp [moments, next?_of_ask h, turn_of_ask h]

theorem after_cons_of_ask {call : Call} {next : Answer call → Procedure Call Answer α}
    (h : all.rest i = ask call next) :
    all.after answerer (i :: schedule) =
      (all.answered answerer i call next).after answerer schedule := by
  simp [after, turn_of_ask h]

/-- What holds of the history and of what is left, as long as every moment is a good one, if it
holds at first and every call preserves it. -/
theorem invariant (Good : Moment Call Answer σ → Prop)
    (Holds : List (ι × Moment Call Answer σ) → SideBySide ι Call Answer α σ → Prop)
    (hcall : ∀ history (all : SideBySide ι Call Answer α σ) i call next,
      all.rest i = ask call next → Good (all.momentOf answerer call) → Holds history all →
        Holds (history ++ [(i, all.momentOf answerer call)]) (all.answered answerer i call next))
    {history : List (ι × Moment Call Answer σ)} (h : Holds history all)
    (hgood : ∀ x ∈ all.moments answerer schedule, Good x.2) :
    Holds (history ++ all.moments answerer schedule) (all.after answerer schedule) := by
  induction schedule generalizing all history with
  | nil => simpa [moments, after] using h
  | cons i schedule ih =>
      rcases hrest : all.rest i with value | ⟨call, next⟩
      · rw [moments_cons_of_done hrest] at hgood ⊢
        rw [after_cons_of_done hrest]
        exact ih h hgood
      · rw [moments_cons_of_ask hrest] at hgood ⊢
        rw [after_cons_of_ask hrest, List.append_cons]
        obtain ⟨hfirst, hrests⟩ := List.forall_mem_cons.mp hgood
        exact ih (hcall history all i call next hrest hfirst h) hrests

/-- A moment of a schedule is the next one of its procedure, after the turns that come before. -/
theorem exists_of_moments_eq {before later : List (ι × Moment Call Answer σ)}
    {m : Moment Call Answer σ} (h : all.moments answerer schedule = before ++ (i, m) :: later) :
    ∃ earlier, all.moments answerer earlier = before ∧
      (all.after answerer earlier).next? answerer i = some m := by
  induction schedule generalizing all before with
  | nil => simp [moments] at h
  | cons j schedule ih =>
      rcases hrest : all.rest j with value | ⟨call, next⟩
      · rw [moments_cons_of_done hrest] at h
        exact ih h
      · rw [moments_cons_of_ask hrest] at h
        rcases before with _ | ⟨first, before⟩
        · obtain ⟨hfirst, -⟩ := List.cons.inj h
          obtain ⟨rfl, rfl⟩ := Prod.mk.inj hfirst
          exact ⟨[], rfl, next?_of_ask hrest⟩
        · obtain ⟨rfl, hlater⟩ := List.cons.inj h
          obtain ⟨earlier, hmoments, hnext⟩ := ih hlater
          refine ⟨j :: earlier, ?_, ?_⟩
          · rw [moments_cons_of_ask hrest, hmoments]
          · rw [after_cons_of_ask hrest]
            exact hnext

end SideBySide

end StackControl.Procedure
