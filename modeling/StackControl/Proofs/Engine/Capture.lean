import StackControl.Engine.Client
import StackControl.Proofs.Procedure.Realisation

/-!
# Commands whose output is kept

A command whose output is kept is launched once, and its answer decides what comes of it: a fault of
the launch, a failure with what was written about it, or the finished command.
-/

namespace StackControl.Engine

open Procedure (Answerer Exchange)

variable {σ : Type}

/-- What the answer to a command whose output is kept comes to. -/
def outcomeOfCapture (launch : Launch) : Except LaunchFault Finished → Except Error Finished
  | .error fault => .error (.launch launch.label fault)
  | .ok finished =>
    if finished.status.isSuccess then .ok finished
    else
      .error (.commandFailed launch.label finished.status.code
        (Text.trimmed (Utf8.decodeLossy finished.stderr)))

theorem outcomeOfCapture_eq_ok_iff {launch : Launch} {answer : Except LaunchFault Finished}
    {finished : Finished} :
    outcomeOfCapture launch answer = .ok finished ↔
      answer = .ok finished ∧ finished.status.isSuccess := by
  rcases answer with fault | ended
  · simp [outcomeOfCapture]
  · rw [outcomeOfCapture]
    split
    · rename_i hsuccess
      constructor
      · rintro ⟨⟩
        exact ⟨rfl, hsuccess⟩
      · rintro ⟨⟨⟩, -⟩
        rfl
    · rename_i hfailure
      constructor
      · rintro ⟨⟩
      · rintro ⟨⟨⟩, hsuccess⟩
        exact absurd hsuccess hfailure

theorem isSuccess_of_outcomeOfCapture_error {launch : Launch} {e : Error} {finished : Finished}
    (h : outcomeOfCapture launch (.ok finished) = .error e) :
    finished.status.isSuccess = false := by
  rw [← Bool.not_eq_true]
  intro hsuccess
  rw [outcomeOfCapture_eq_ok_iff.mpr ⟨rfl, hsuccess⟩] at h
  cases h

/-- A launch of a command whose output is kept, with its answer. -/
abbrev exchanged (launch : Launch) (answer : Except LaunchFault Finished) :
    Exchange Machine.Call Machine.Call.Answer :=
  ⟨.launch launch .captured, answer⟩

theorem capture_eq (launch : Launch) :
    (capture launch).run = outcomeOfCapture launch <$> Machine.launch launch .captured := by
  refine congrArg (Procedure.ask (Machine.Call.launch launch .captured)) (funext fun answer => ?_)
  cases answer with
  | error fault => rfl
  | ok finished =>
      change (if finished.status.isSuccess then pure finished else throw _ : Attempt Finished).run =
        Procedure.done (outcomeOfCapture launch (.ok finished))
      rw [outcomeOfCapture]
      split
      · rfl
      · rfl

theorem run_capture (os : Answerer Machine.Call Machine.Call.Answer σ) (launch : Launch) (s : σ) :
    Procedure.run os (capture launch).run s =
      (outcomeOfCapture launch (os (.launch launch .captured) s).1,
        (os (.launch launch .captured) s).2) := by
  rw [capture_eq, Procedure.run_map]
  rfl

theorem trace_capture (os : Answerer Machine.Call Machine.Call.Answer σ) (launch : Launch)
    (s : σ) :
    Procedure.trace os (capture launch).run s =
      [exchanged launch (os (.launch launch .captured) s).1] := by
  rw [capture_eq, Procedure.trace_eq_map_moments, Procedure.moments_map]
  rfl

theorem only_captured (launch : Launch) :
    (capture launch).run.Only fun call => ∃ launch, call = .launch launch .captured := by
  have hlaunch : (Machine.launch launch .captured).Only
      fun call => ∃ launch, call = .launch launch .captured :=
    Procedure.only_call.mpr ⟨launch, rfl⟩
  rw [capture_eq]
  exact hlaunch.map _

end StackControl.Engine
