import Mathlib.Algebra.Order.Floor.Div
import StackControl.Proofs.Lifecycle.Readiness

/-!
# The budget of the readiness gate

All endpoints share one budget of time.  Where checks cost no time and a pause lasts as long as it
was asked to, refusals come an interval apart and the last of them at the deadline.  So the budget
is a number of refusals, whichever endpoints they come from, and the wait ends with the first
refusal beyond that number.  A budget beyond the range of the clock never runs out.
-/

namespace StackControl.Lifecycle.Readiness

open Procedure (Answerer Moment)

/-! ## Checks that cost no time -/

/-- How many checks were made, and the time. -/
structure Watch where
  checked : Nat
  time : Nat

/-- Successive checks are answered by a sequence and cost no time, and a pause lasts exactly as long
as it was asked to. -/
def answering (answers : Nat → Bool) : Answerer Call Call.Answer Watch
  | .check _, w => (answers w.checked, { w with checked := w.checked + 1 })
  | .clock .now, w => (w.time, w)
  | .clock (.sleep pause), w => ((), { w with time := w.time + pause })

/-- A refusal at this time does not end the wait. -/
def InTime (deadline : Option Nat) (time : Nat) : Prop :=
  ∀ d ∈ deadline, time < d

/-- The pause that follows a refusal. -/
def pauseAt (interval : Nat) (deadline : Option Nat) (time : Nat) : Nat :=
  match deadline with
  | none => interval
  | some deadline => min interval (deadline - time)

/-- The time after a number of refusals. -/
def timeAfter (interval : Nat) (deadline : Option Nat) (start : Nat) : Nat → Nat
  | 0 => start
  | refused + 1 =>
    timeAfter interval deadline start refused +
      pauseAt interval deadline (timeAfter interval deadline start refused)

variable {answers : Nat → Bool} {interval start patience : Nat} {deadline : Option Nat}
  {endpoint : Endpoint} {w : Watch}

theorem pauseAt_of_inTime (hinterval : 0 < interval) (h : InTime deadline w.time) :
    0 < pauseAt interval deadline w.time ∧ pauseAt interval deadline w.time ≤ interval ∧
      ∀ d ∈ deadline, w.time + pauseAt interval deadline w.time ≤ d := by
  cases deadline with
  | none => simpa [pauseAt] using hinterval
  | some d =>
      have hd : w.time < d := h d rfl
      simp only [pauseAt, Option.mem_def, Option.some.injEq, forall_eq']
      omega

/-! ## Parts of a wait -/

/-- A moment keeps the pace of an interval and a deadline: if it is a pause, it lasts some time, but
no longer than the interval, and it is over by the deadline. -/
def KeepsPace (interval : Nat) (deadline : Option Nat) (m : Moment Call Call.Answer Watch) : Prop :=
  ∀ pause, m.call = .clock (.sleep pause) →
    0 < pause ∧ pause ≤ interval ∧ ∀ d ∈ deadline, m.state.time + pause ≤ d

theorem keepsPace_of_ne {m : Moment Call Call.Answer Watch}
    (h : ∀ pause, m.call ≠ .clock (.sleep pause)) :
    KeepsPace interval deadline m :=
  fun pause hpause => absurd hpause (h pause)

/-- A wait, or a part of one, is over: what was checked, what came of it, and the watch afterwards;
its pauses kept the pace. -/
structure Ends (answers : Nat → Bool) (interval : Nat) (deadline : Option Nat)
    (flow : ExceptT Failure Activity Unit) (w : Watch) (polls : List (Endpoint × Bool))
    (result : Except Failure Unit) (after : Watch) : Prop where
  run_eq : Procedure.run (answering answers) flow.run w = (result, after)
  checks_eq : checks (Procedure.moments (answering answers) flow.run w) = polls
  keepsPace : ∀ m ∈ Procedure.moments (answering answers) flow.run w,
    KeepsPace interval deadline m

section Ends

variable {flow rest : ExceptT Failure Activity Unit} {polls polls' : List (Endpoint × Bool)}
  {result : Except Failure Unit} {between after : Watch}

theorem Ends.bind (hflow : Ends answers interval deadline flow w polls (.ok ()) between)
    (hrest : Ends answers interval deadline rest between polls' result after) :
    Ends answers interval deadline (do flow; rest) w (polls ++ polls') result after := by
  have hmoments : Procedure.moments (answering answers) (do flow; rest).run w =
      Procedure.moments (answering answers) flow.run w ++
        Procedure.moments (answering answers) rest.run between := by
    rw [Procedure.moments_bind_run, hflow.run_eq]
  constructor
  · rw [Procedure.run_bind_run, hflow.run_eq]
    exact hrest.run_eq
  · rw [hmoments, checks_append, hflow.checks_eq, hrest.checks_eq]
  · rw [hmoments]
    intro m hm
    exact (List.mem_append.mp hm).elim (hflow.keepsPace m) (hrest.keepsPace m)

theorem Ends.bind_error {e : Failure}
    (hflow : Ends answers interval deadline flow w polls (.error e) after) :
    Ends answers interval deadline (do flow; rest) w polls (.error e) after := by
  have hmoments : Procedure.moments (answering answers) (do flow; rest).run w =
      Procedure.moments (answering answers) flow.run w := by
    rw [Procedure.moments_bind_run, hflow.run_eq, List.append_nil]
  constructor
  · rw [Procedure.run_bind_run, hflow.run_eq]
  · rw [hmoments, hflow.checks_eq]
  · rw [hmoments]
    exact hflow.keepsPace

end Ends

/-! ## One endpoint -/

/-- What is done between a refusal and the next check. -/
def interlude (interval : Nat) (deadline : Option Nat) (endpoint : Endpoint) :
    ExceptT Failure Activity Unit := do
  sleep (← pauseAfterRefusal interval deadline endpoint)

theorem run_pause (h : InTime deadline w.time) :
    Procedure.run (answering answers) (pauseAfterRefusal interval deadline endpoint).run w =
      (.ok (pauseAt interval deadline w.time), w) := by
  cases deadline with
  | none => rfl
  | some d =>
      have hd : ¬w.time ≥ d := Nat.not_le.mpr (h d rfl)
      have hnow : Procedure.run (answering answers) now.run w = (.ok w.time, w) := rfl
      rw [pauseAfterRefusal, Procedure.run_bind_run, hnow]
      dsimp only
      rw [if_neg hd]
      rfl

theorem run_pause_late {d : Nat} (h : d ≤ w.time) :
    Procedure.run (answering answers) (pauseAfterRefusal interval (some d) endpoint).run w =
      (.error (.timeout endpoint), w) := by
  have hnow : Procedure.run (answering answers) now.run w = (.ok w.time, w) := rfl
  rw [pauseAfterRefusal, Procedure.run_bind_run, hnow]
  dsimp only
  rw [if_pos h]
  rfl

theorem checks_pause :
    checks (Procedure.moments (answering answers)
      (pauseAfterRefusal interval deadline endpoint).run w) = [] :=
  checks_eq_nil fun _ hm => (only_pauseAfterRefusal interval deadline endpoint).mem_moments hm

theorem keepsPace_pause {m : Moment Call Call.Answer Watch}
    (hm : m ∈ Procedure.moments (answering answers)
      (pauseAfterRefusal interval deadline endpoint).run w) :
    KeepsPace interval deadline m := by
  have hnow := (only_pauseAfterRefusal_now interval deadline endpoint).mem_moments hm
  apply keepsPace_of_ne
  intro pause hpause
  rw [hnow] at hpause
  cases hpause

/-- Before the deadline there is a pause. -/
theorem ends_interlude (hinterval : 0 < interval) (h : InTime deadline w.time) :
    Ends answers interval deadline (interlude interval deadline endpoint) w [] (.ok ())
      { w with time := w.time + pauseAt interval deadline w.time } := by
  have hmoments :
      Procedure.moments (answering answers) (interlude interval deadline endpoint).run w =
        Procedure.moments (answering answers)
            (pauseAfterRefusal interval deadline endpoint).run w ++
          [⟨w, .clock (.sleep (pauseAt interval deadline w.time)), ()⟩] := by
    rw [interlude, Procedure.moments_bind_run, run_pause h]
    rfl
  constructor
  · rw [interlude, Procedure.run_bind_run, run_pause h]
    rfl
  · rw [hmoments, checks_append, checks_pause]
    rfl
  · rw [hmoments]
    intro m hm
    rcases List.mem_append.mp hm with hm | hm
    · exact keepsPace_pause hm
    · intro pause hpause
      rw [List.mem_singleton.mp hm] at hpause ⊢
      cases hpause
      exact pauseAt_of_inTime hinterval h

/-- From the deadline on a refusal ends the wait. -/
theorem ends_interlude_late {d : Nat} (h : d ≤ w.time) :
    Ends answers interval (some d) (interlude interval (some d) endpoint) w []
      (.error (.timeout endpoint)) w := by
  have hmoments :
      Procedure.moments (answering answers) (interlude interval (some d) endpoint).run w =
        Procedure.moments (answering answers)
          (pauseAfterRefusal interval (some d) endpoint).run w := by
    rw [interlude, Procedure.moments_bind_run, run_pause_late h, List.append_nil]
  constructor
  · rw [interlude, Procedure.run_bind_run, run_pause_late h]
  · rw [hmoments, checks_pause]
  · rw [hmoments]
    exact fun _ => keepsPace_pause

theorem ends_accepted (h : answers w.checked = true) :
    Ends answers interval deadline (awaitEndpoint interval deadline endpoint (patience + 1)) w
      [(endpoint, true)] (.ok ()) { w with checked := w.checked + 1 } := by
  have hcheck : answering answers (.check endpoint) w = (true, ⟨w.checked + 1, w.time⟩) := by
    simp [answering, h]
  have hmoments : Procedure.moments (answering answers)
      (awaitEndpoint interval deadline endpoint (patience + 1)).run w =
        [⟨w, .check endpoint, true⟩] := by
    rw [awaitEndpoint, Procedure.moments_bind_run, run_check, moments_check, hcheck]
    rfl
  constructor
  · rw [awaitEndpoint, Procedure.run_bind_run, run_check, hcheck]
    rfl
  · rw [hmoments]
    rfl
  · rw [hmoments]
    exact List.forall_mem_singleton.mpr (keepsPace_of_ne (by simp))

/-- After a refusal the wait goes on with what is done before the next check. -/
theorem ends_refused {polls : List (Endpoint × Bool)} {result : Except Failure Unit}
    {after : Watch} (h : answers w.checked = false)
    (hrest : Ends answers interval deadline
      (do interlude interval deadline endpoint; awaitEndpoint interval deadline endpoint patience)
      { w with checked := w.checked + 1 } polls result after) :
    Ends answers interval deadline (awaitEndpoint interval deadline endpoint (patience + 1)) w
      ((endpoint, false) :: polls) result after := by
  have hcheck : answering answers (.check endpoint) w = (false, ⟨w.checked + 1, w.time⟩) := by
    simp [answering, h]
  simp only [interlude, bind_assoc] at hrest
  have hmoments : Procedure.moments (answering answers)
      (awaitEndpoint interval deadline endpoint (patience + 1)).run w =
        ⟨w, .check endpoint, false⟩ :: Procedure.moments (answering answers)
          (do
            sleep (← pauseAfterRefusal interval deadline endpoint)
            awaitEndpoint interval deadline endpoint patience :
              ExceptT Failure Activity Unit).run { w with checked := w.checked + 1 } := by
    rw [awaitEndpoint, Procedure.moments_bind_run, run_check, moments_check, hcheck]
    rfl
  constructor
  · rw [awaitEndpoint, Procedure.run_bind_run, run_check, hcheck]
    exact hrest.run_eq
  · rw [hmoments, ← hrest.checks_eq]
    rfl
  · rw [hmoments]
    exact List.forall_mem_cons.mpr ⟨keepsPace_of_ne (by simp), hrest.keepsPace⟩

/-! ## The course of the checks -/

/-- Answers that a sequence gives from a place on. -/
def AnsweredFrom (answers : Nat → Bool) : Nat → List (Endpoint × Bool) → Prop
  | _, [] => True
  | n, poll :: polls => answers n = poll.2 ∧ AnsweredFrom answers (n + 1) polls

/-- How many checks were refused. -/
def refusals (polls : List (Endpoint × Bool)) : Nat :=
  polls.countP fun poll => !poll.2

/-- The answers by which each of the endpoints before one, in order, refuses some times and then
accepts, and that one refuses to the end. -/
inductive GivenUp (endpoint : Endpoint) : List Endpoint → List (Endpoint × Bool) → Prop
  | here (refused : Nat) (endpoints : List Endpoint) :
      GivenUp endpoint (endpoint :: endpoints) (List.replicate (refused + 1) (endpoint, false))
  | later (first : Endpoint) (refused : Nat) {endpoints : List Endpoint}
      {polls : List (Endpoint × Bool)} (hlater : GivenUp endpoint endpoints polls) :
      GivenUp endpoint (first :: endpoints)
        (List.replicate refused (first, false) ++ (first, true) :: polls)

variable {endpoints : List Endpoint} {polls polls' : List (Endpoint × Bool)} {n k : Nat}

theorem answeredFrom_append :
    AnsweredFrom answers n (polls ++ polls') ↔
      AnsweredFrom answers n polls ∧ AnsweredFrom answers (n + polls.length) polls' := by
  induction polls generalizing n with
  | nil => simp [AnsweredFrom]
  | cons poll polls ih =>
      have hlength : n + 1 + polls.length = n + (polls.length + 1) := by omega
      simp only [List.cons_append, AnsweredFrom, ih, List.length_cons, hlength, and_assoc]

theorem refusals_append : refusals (polls ++ polls') = refusals polls + refusals polls' :=
  List.countP_append

theorem refusals_replicate (refused : Nat) (endpoint : Endpoint) :
    refusals (List.replicate refused (endpoint, false)) = refused := by
  simp [refusals, List.countP_replicate]

theorem refusals_cons (endpoint : Endpoint) (accepted : Bool) :
    refusals ((endpoint, accepted) :: polls) = refusals polls + (!accepted).toNat := by
  cases accepted <;> simp [refusals]

/-- The checks decide a wait that tolerates a number of refusals: either every endpoint is accepted
with no more of them, or one is given up with the first refusal beyond them. -/
def Decides (endpoints : List Endpoint) (tolerated : Nat) (polls : List (Endpoint × Bool)) : Prop :=
  Accepted endpoints polls ∧ refusals polls ≤ tolerated ∨
    ∃ endpoint, GivenUp endpoint endpoints polls ∧ refusals polls = tolerated + 1

theorem Decides.accept {tolerated : Nat} (h : Decides endpoints tolerated polls) :
    Decides (endpoint :: endpoints) tolerated ((endpoint, true) :: polls) := by
  rcases h with ⟨haccepted, hle⟩ | ⟨stuck, hstuck, heq⟩
  · exact .inl ⟨.cons endpoint 0 haccepted, by simpa [refusals_cons] using hle⟩
  · exact .inr ⟨stuck, .later endpoint 0 hstuck, by simpa [refusals_cons] using heq⟩

theorem Decides.refuse {tolerated : Nat} (h : Decides (endpoint :: endpoints) tolerated polls) :
    Decides (endpoint :: endpoints) (tolerated + 1) ((endpoint, false) :: polls) := by
  rcases h with ⟨haccepted, hle⟩ | ⟨stuck, hstuck, heq⟩
  · obtain _ | ⟨_, refused, haccepted⟩ := haccepted
    exact .inl ⟨.cons endpoint (refused + 1) haccepted, by simpa [refusals_cons] using hle⟩
  · refine .inr ⟨stuck, ?_, by simpa [refusals_cons] using heq⟩
    obtain ⟨refused, _⟩ | ⟨_, refused, hlater⟩ := hstuck
    · exact .here (refused + 1) endpoints
    · exact .later endpoint (refused + 1) hlater

/-- Whatever the answers are, enough of them decide a wait. -/
theorem exists_decides (answers : Nat → Bool) (endpoints : List Endpoint) (n tolerated : Nat) :
    ∃ polls, AnsweredFrom answers n polls ∧ Decides endpoints tolerated polls := by
  induction endpoints generalizing n tolerated with
  | nil => exact ⟨[], trivial, .inl ⟨.nil, Nat.zero_le tolerated⟩⟩
  | cons endpoint endpoints ih =>
      have haccept (n tolerated : Nat) (h : answers n = true) :
          ∃ polls, AnsweredFrom answers n polls ∧
            Decides (endpoint :: endpoints) tolerated polls := by
        obtain ⟨polls, hpolls, hdecides⟩ := ih (n + 1) tolerated
        exact ⟨(endpoint, true) :: polls, ⟨h, hpolls⟩, hdecides.accept⟩
      -- The same endpoint is asked again after a refusal, with one fewer tolerated.
      induction tolerated generalizing n with
      | zero =>
          by_cases h : answers n = true
          · exact haccept n 0 h
          · rw [Bool.not_eq_true] at h
            exact ⟨[(endpoint, false)], ⟨h, trivial⟩,
              .inr ⟨endpoint, .here 0 endpoints, refusals_replicate 1 endpoint⟩⟩
      | succ tolerated ihrefused =>
          by_cases h : answers n = true
          · exact haccept n (tolerated + 1) h
          · rw [Bool.not_eq_true] at h
            obtain ⟨polls, hpolls, hdecides⟩ := ihrefused (n + 1)
            exact ⟨(endpoint, false) :: polls, ⟨h, hpolls⟩, hdecides.refuse⟩

/-! ## Waits -/

/-- Refusals in time put a wait off, and use up patience. -/
theorem ends_refusals (hinterval : 0 < interval) {refused : Nat} {result : Except Failure Unit}
    {after : Watch} (hanswers : AnsweredFrom answers n (List.replicate refused (endpoint, false)))
    (hintime : ∀ i < refused, InTime deadline (timeAfter interval deadline start (k + i)))
    (hends : Ends answers interval deadline (awaitEndpoint interval deadline endpoint patience)
      ⟨n + refused, timeAfter interval deadline start (k + refused)⟩ polls result after) :
    Ends answers interval deadline (awaitEndpoint interval deadline endpoint (patience + refused))
      ⟨n, timeAfter interval deadline start k⟩
      (List.replicate refused (endpoint, false) ++ polls) result after := by
  induction refused generalizing n k with
  | zero => exact hends
  | succ refused ih =>
      obtain ⟨hrefused, hanswers⟩ := hanswers
      have hnow := hintime 0 (Nat.succ_pos refused)
      have hlater : ∀ i < refused,
          InTime deadline (timeAfter interval deadline start (k + 1 + i)) := by
        intro i hi
        have hi' := hintime (i + 1) (by omega)
        rwa [show k + 1 + i = k + (i + 1) by omega]
      rw [show n + (refused + 1) = n + 1 + refused by omega,
        show k + (refused + 1) = k + 1 + refused by omega] at hends
      exact ends_refused hrefused ((ends_interlude hinterval hnow).bind (ih hanswers hlater hends))

/-- An endpoint that refuses in time and then accepts is left. -/
theorem ends_awaitEndpoint_accepted (hinterval : 0 < interval) {refused : Nat}
    (hanswers : AnsweredFrom answers n
      (List.replicate refused (endpoint, false) ++ [(endpoint, true)]))
    (hintime : ∀ i < refused, InTime deadline (timeAfter interval deadline start (k + i)))
    (hpatience : refused < patience) :
    Ends answers interval deadline (awaitEndpoint interval deadline endpoint patience)
      ⟨n, timeAfter interval deadline start k⟩
      (List.replicate refused (endpoint, false) ++ [(endpoint, true)]) (.ok ())
      ⟨n + refused + 1, timeAfter interval deadline start (k + refused)⟩ := by
  obtain ⟨hrefusals, haccepted⟩ := answeredFrom_append.mp hanswers
  rw [List.length_replicate] at haccepted
  obtain ⟨left, rfl⟩ : ∃ left, patience = left + 1 + refused :=
    ⟨patience - refused - 1, by omega⟩
  exact ends_refusals hinterval hrefusals hintime (ends_accepted haccepted.1)

/-- An endpoint that refuses in time and then too late is given up. -/
theorem ends_awaitEndpoint_givenUp (hinterval : 0 < interval) {refused d : Nat}
    (hanswers : AnsweredFrom answers n (List.replicate (refused + 1) (endpoint, false)))
    (hintime : ∀ i < refused, InTime (some d) (timeAfter interval (some d) start (k + i)))
    (hlate : d ≤ timeAfter interval (some d) start (k + refused)) (hpatience : refused < patience) :
    Ends answers interval (some d) (awaitEndpoint interval (some d) endpoint patience)
      ⟨n, timeAfter interval (some d) start k⟩
      (List.replicate (refused + 1) (endpoint, false)) (.error (.timeout endpoint))
      ⟨n + refused + 1, timeAfter interval (some d) start (k + refused)⟩ := by
  rw [List.replicate_succ'] at hanswers ⊢
  obtain ⟨hrefusals, hlast⟩ := answeredFrom_append.mp hanswers
  rw [List.length_replicate] at hlast
  obtain ⟨left, rfl⟩ : ∃ left, patience = left + 1 + refused :=
    ⟨patience - refused - 1, by omega⟩
  exact ends_refusals hinterval hrefusals hintime
    (ends_refused hlast.1 (ends_interlude_late hlate).bind_error)

/-- What is known of the checks of one endpoint and of those after it. -/
theorem answeredFrom_first {refused : Nat}
    (h : AnsweredFrom answers n
      (List.replicate refused (endpoint, false) ++ (endpoint, true) :: polls)) :
    AnsweredFrom answers n (List.replicate refused (endpoint, false) ++ [(endpoint, true)]) ∧
      AnsweredFrom answers (n + refused + 1) polls := by
  rw [List.append_cons, answeredFrom_append] at h
  simpa [Nat.add_assoc] using h

theorem refusals_first (endpoint : Endpoint) (refused : Nat) :
    refusals (List.replicate refused (endpoint, false) ++ (endpoint, true) :: polls) =
      refused + refusals polls := by
  rw [refusals_append, refusals_replicate, refusals_cons]
  simp

theorem GivenUp.refusals_pos (h : GivenUp endpoint endpoints polls) : 0 < refusals polls := by
  induction h with
  | here refused endpoints =>
      rw [refusals_replicate]
      exact Nat.succ_pos refused
  | later first refused _ ih =>
      rw [refusals_first]
      omega

theorem length_first (endpoint : Endpoint) (refused : Nat) :
    (List.replicate refused (endpoint, false) ++ (endpoint, true) :: polls).length =
      refused + 1 + polls.length := by
  simp
  omega

/-- Endpoints that are all accepted in time are all left. -/
theorem ends_awaitAll_accepted (hinterval : 0 < interval) (haccepted : Accepted endpoints polls)
    (hanswers : AnsweredFrom answers n polls)
    (hintime : ∀ i < refusals polls, InTime deadline (timeAfter interval deadline start (k + i)))
    (hpatience : refusals polls < patience) :
    Ends answers interval deadline (awaitAll interval deadline patience endpoints)
      ⟨n, timeAfter interval deadline start k⟩ polls (.ok ())
      ⟨n + polls.length, timeAfter interval deadline start (k + refusals polls)⟩ := by
  induction haccepted generalizing n k with
  | nil => exact ⟨rfl, rfl, fun _ hm => absurd hm List.not_mem_nil⟩
  | @cons endpoint refused endpoints polls _ ih =>
      obtain ⟨hfirst, hlater⟩ := answeredFrom_first hanswers
      rw [refusals_first] at hintime hpatience ⊢
      have hends := ends_awaitEndpoint_accepted hinterval hfirst
        (fun i hi => hintime i (by omega)) (by omega : refused < patience)
      have hrest := ih hlater (k := k + refused)
        (fun i hi => by rw [Nat.add_assoc]; exact hintime (refused + i) (by omega)) (by omega)
      rw [length_first, ← Nat.add_assoc, ← Nat.add_assoc, ← Nat.add_assoc, List.append_cons]
      exact hends.bind hrest

/-- An endpoint that is given up ends the wait, and the endpoints before it have been left. -/
theorem ends_awaitAll_givenUp (hinterval : 0 < interval) {d tolerated : Nat}
    (hgivenUp : GivenUp endpoint endpoints polls) (hanswers : AnsweredFrom answers n polls)
    (hrefusals : refusals polls = tolerated + 1)
    (hintime : ∀ i < tolerated, InTime (some d) (timeAfter interval (some d) start (k + i)))
    (hlate : d ≤ timeAfter interval (some d) start (k + tolerated))
    (hpatience : tolerated < patience) :
    Ends answers interval (some d) (awaitAll interval (some d) patience endpoints)
      ⟨n, timeAfter interval (some d) start k⟩ polls (.error (.timeout endpoint))
      ⟨n + polls.length, timeAfter interval (some d) start (k + tolerated)⟩ := by
  induction hgivenUp generalizing n k tolerated with
  | here refused endpoints =>
      rw [refusals_replicate] at hrefusals
      obtain rfl : refused = tolerated := by omega
      rw [List.length_replicate]
      exact (ends_awaitEndpoint_givenUp hinterval hanswers hintime hlate hpatience).bind_error
  | @later first refused endpoints polls hgivenUp ih =>
      obtain ⟨hfirst, hlater⟩ := answeredFrom_first hanswers
      rw [refusals_first] at hrefusals
      obtain ⟨left, rfl⟩ : ∃ left, tolerated = refused + left := by
        have hpositive := hgivenUp.refusals_pos
        exact ⟨refusals polls - 1, by omega⟩
      have hends := ends_awaitEndpoint_accepted hinterval hfirst
        (fun i hi => hintime i (by omega)) (by omega : refused < patience)
      rw [← Nat.add_assoc] at hlate ⊢
      have hrest := ih hlater (k := k + refused) (by omega)
        (fun i hi => by rw [Nat.add_assoc]; exact hintime (refused + i) (by omega)) hlate (by omega)
      rw [length_first, ← Nat.add_assoc, ← Nat.add_assoc, List.append_cons]
      exact hends.bind hrest

/-! ## The whole wait -/

/-- With a deadline, refusals are in time exactly as long as the budget lasts. -/
theorem timeAfter_some (interval start budget refused : Nat) :
    timeAfter interval (some (start + budget)) start refused =
      start + min (refused * interval) budget := by
  induction refused with
  | zero => simp [timeAfter]
  | succ refused ih =>
      rw [timeAfter, ih, Nat.succ_mul]
      simp only [pauseAt]
      omega

theorem inTime_iff (hinterval : 0 < interval) {budget refused : Nat} :
    InTime (some (start + budget)) (timeAfter interval (some (start + budget)) start refused) ↔
      refused < budget ⌈/⌉ interval := by
  have hceil : refused < budget ⌈/⌉ interval ↔ refused * interval < budget := by
    rw [← not_le, ceilDiv_le_iff_le_mul hinterval, not_le, Nat.mul_comm]
  rw [hceil, timeAfter_some]
  simp [InTime]

/-- A wait begins by looking at the clock. -/
theorem ends_wait {budget : Nat} {result : Except Failure Unit} {after : Watch}
    (hdeadline : deadlineOf start budget = deadline)
    (h : Ends answers interval deadline (awaitAll interval deadline patience endpoints)
      ⟨0, start⟩ polls result after) :
    Ends answers interval deadline (wait interval budget patience endpoints) ⟨0, start⟩ polls
      result after := by
  rw [← hdeadline] at h
  have hmoments : Procedure.moments (answering answers)
      (wait interval budget patience endpoints).run ⟨0, start⟩ =
        ⟨⟨0, start⟩, .clock .now, start⟩ :: Procedure.moments (answering answers)
          (awaitAll interval (deadlineOf start budget) patience endpoints).run ⟨0, start⟩ := by
    rw [wait, Procedure.moments_bind_run]
    rfl
  constructor
  · rw [wait, Procedure.run_bind_run]
    exact h.run_eq
  · rw [hmoments]
    exact h.checks_eq
  · rw [hmoments, ← hdeadline]
    exact List.forall_mem_cons.mpr ⟨keepsPace_of_ne (by simp), h.keepsPace⟩

section Budget

variable {budget : Nat}

/-- A wait ends well if the budget lasts for the refusals. -/
theorem ends_wait_accepted (hinterval : 0 < interval) (hrange : start + budget < clockRange)
    (haccepted : Accepted endpoints polls) (hanswers : AnsweredFrom answers 0 polls)
    (hle : refusals polls ≤ budget ⌈/⌉ interval) (hpatience : budget ⌈/⌉ interval < patience) :
    ∃ after, Ends answers interval (some (start + budget))
      (wait interval budget patience endpoints) ⟨0, start⟩ polls (.ok ()) after := by
  have hintime : ∀ i < refusals polls, InTime (some (start + budget))
      (timeAfter interval (some (start + budget)) start (0 + i)) :=
    fun i hi => (inTime_iff hinterval).mpr (by omega)
  have hpatient : refusals polls < patience := by omega
  have hends := ends_awaitAll_accepted hinterval haccepted hanswers hintime hpatient
  exact ⟨_, ends_wait (if_pos hrange) hends⟩

/-- A wait ends at the deadline with the refusal for which the budget does not last. -/
theorem ends_wait_givenUp (hinterval : 0 < interval) (hrange : start + budget < clockRange)
    (hgivenUp : GivenUp endpoint endpoints polls) (hanswers : AnsweredFrom answers 0 polls)
    (hrefusals : refusals polls = budget ⌈/⌉ interval + 1)
    (hpatience : budget ⌈/⌉ interval < patience) :
    ∃ after, Ends answers interval (some (start + budget))
        (wait interval budget patience endpoints) ⟨0, start⟩ polls (.error (.timeout endpoint))
        after ∧
      after.time = start + budget := by
  have hover : budget ≤ budget ⌈/⌉ interval * interval := by
    rw [Nat.mul_comm]
    exact le_smul_ceilDiv hinterval
  have hlate : timeAfter interval (some (start + budget)) start (budget ⌈/⌉ interval) =
      start + budget := by
    rw [timeAfter_some, Nat.min_eq_right hover]
  have hintime : ∀ i < budget ⌈/⌉ interval, InTime (some (start + budget))
      (timeAfter interval (some (start + budget)) start (0 + i)) :=
    fun i hi => (inTime_iff hinterval).mpr (by omega)
  have hends := ends_awaitAll_givenUp hinterval hgivenUp hanswers hrefusals hintime
    (by rw [Nat.zero_add, hlate]) hpatience
  rw [Nat.zero_add, Nat.zero_add, hlate] at hends
  exact ⟨_, ends_wait (if_pos hrange) hends, rfl⟩

/-- Beyond the range of the clock any number of refusals is watched that patience allows. -/
theorem ends_wait_unbounded (hinterval : 0 < interval) (hrange : clockRange ≤ start + budget)
    (haccepted : Accepted endpoints polls) (hanswers : AnsweredFrom answers 0 polls)
    (hpatience : refusals polls < patience) :
    ∃ after, Ends answers interval none (wait interval budget patience endpoints) ⟨0, start⟩ polls
      (.ok ()) after := by
  have hintime : ∀ i < refusals polls, InTime none (timeAfter interval none start (0 + i)) :=
    fun i _ => nofun
  have hends := ends_awaitAll_accepted hinterval haccepted hanswers hintime hpatience
  exact ⟨_, ends_wait (if_neg (by omega)) hends⟩

end Budget

/-- Without a deadline no endpoint is given up for want of time, whoever answers. -/
theorem awaitAll_ne_timeout {σ : Type} (answerer : Answerer Call Call.Answer σ)
    (interval patience : Nat) (endpoints : List Endpoint) (endpoint : Endpoint) (s : σ) :
    (Procedure.run answerer (awaitAll interval none patience endpoints).run s).1 ≠
      .error (.timeout endpoint) := by
  have hone (patience : Nat) (first : Endpoint) (s : σ) :
      (Procedure.run answerer (awaitEndpoint interval none first patience).run s).1 ≠
        .error (.timeout endpoint) := by
    induction patience generalizing s with
    | zero =>
        intro h
        cases h
    | succ patience ih =>
        rw [awaitEndpoint, Procedure.run_bind_run, run_check]
        dsimp only
        split
        · intro h
          cases h
        · exact ih _
  induction endpoints generalizing s with
  | nil =>
      intro h
      cases h
  | cons first rest ih =>
      have hfirst := hone patience first s
      rw [awaitAll, Procedure.run_bind_run]
      rcases hrun : Procedure.run answerer (awaitEndpoint interval none first patience).run s with
        ⟨e | _, between⟩
      · rw [hrun] at hfirst
        exact hfirst
      · exact ih between

/-- A wait spends one budget of time on all endpoints.  If the budget is within the range of the
clock it lasts for as many refusals as there are intervals in it, the last one begun counting as
one: the wait ends well exactly when the answers accept every endpoint with no more of them, and
otherwise at the deadline, with the first refusal beyond them.  A budget beyond that range never
runs out. -/
theorem wait_spends_budget (answers : Nat → Bool) (endpoints : List Endpoint)
    (interval budget start patience : Nat) (hinterval : 0 < interval) :
    (start + budget < clockRange → budget ⌈/⌉ interval < patience →
      ∃ polls result after,
        Ends answers interval (some (start + budget)) (wait interval budget patience endpoints)
            ⟨0, start⟩ polls result after ∧
          AnsweredFrom answers 0 polls ∧
          (result = .ok () ↔ ∃ polls', Accepted endpoints polls' ∧ AnsweredFrom answers 0 polls' ∧
            refusals polls' ≤ budget ⌈/⌉ interval) ∧
          (result = .ok () → Accepted endpoints polls ∧ refusals polls ≤ budget ⌈/⌉ interval) ∧
          (result ≠ .ok () → ∃ endpoint, result = .error (.timeout endpoint) ∧
            GivenUp endpoint endpoints polls ∧ refusals polls = budget ⌈/⌉ interval + 1 ∧
            after.time = start + budget)) ∧
      (clockRange ≤ start + budget →
        (∀ endpoint, (Procedure.run (answering answers)
            (wait interval budget patience endpoints).run ⟨0, start⟩).1 ≠
              .error (.timeout endpoint)) ∧
          ∀ polls, Accepted endpoints polls → AnsweredFrom answers 0 polls →
            refusals polls < patience →
              ∃ after, Ends answers interval none (wait interval budget patience endpoints)
                ⟨0, start⟩ polls (.ok ()) after) := by
  constructor
  · intro hrange hpatience
    obtain ⟨polls, hanswers, ⟨hall, hle⟩ | ⟨endpoint, hgivenUp, hrefusals⟩⟩ :=
      exists_decides answers endpoints 0 (budget ⌈/⌉ interval)
    · obtain ⟨after, hends⟩ :=
        ends_wait_accepted hinterval hrange hall hanswers hle hpatience
      refine ⟨polls, .ok (), after, hends, hanswers, ?_, fun _ => ⟨hall, hle⟩, absurd rfl⟩
      exact ⟨fun _ => ⟨polls, hall, hanswers, hle⟩, fun _ => rfl⟩
    · obtain ⟨after, hends, htime⟩ :=
        ends_wait_givenUp hinterval hrange hgivenUp hanswers hrefusals hpatience
      refine ⟨polls, .error (.timeout endpoint), after, hends, hanswers, ?_, nofun,
        fun _ => ⟨endpoint, rfl, hgivenUp, hrefusals, htime⟩⟩
      constructor
      · nofun
      · rintro ⟨polls', hall, hanswers', hle⟩
        obtain ⟨after', hends'⟩ :=
          ends_wait_accepted hinterval hrange hall hanswers' hle hpatience
        exact (Prod.mk.inj (hends.run_eq.symm.trans hends'.run_eq)).1
  · intro hrange
    constructor
    · intro endpoint
      have hdeadline : deadlineOf start budget = none := if_neg (by omega)
      have hstart : Procedure.run (answering answers)
          (wait interval budget patience endpoints).run ⟨0, start⟩ =
            Procedure.run (answering answers)
              (awaitAll interval (deadlineOf start budget) patience endpoints).run ⟨0, start⟩ := by
        rw [wait, Procedure.run_bind_run]
        rfl
      rw [hstart, hdeadline]
      exact awaitAll_ne_timeout (answering answers) interval patience endpoints endpoint _
    · intro polls hall hanswers hrefusals
      exact ends_wait_unbounded hinterval hrange hall hanswers hrefusals

/-- Answers of services that start slowly: the first refuses twice, the second once and the third
does not come up. -/
def slowStart (n : Nat) : Bool :=
  n = 2 || n = 4

/-- Two and a half intervals last for three refusals: the fourth ends the wait at the deadline, and
the service that is named has refused only once. -/
theorem slowStart_givenUp :
    0 < 10 ∧
      ∃ polls after,
        Ends slowStart 10 (some 125) (wait 10 25 4 (Endpoint.longRunning 9090)) ⟨0, 100⟩ polls
            (.error (.timeout ⟨"faucet", 3333⟩)) after ∧
          polls.map Prod.snd = [false, false, true, false, true, false] ∧ after.time = 125 := by
  obtain ⟨polls, result, after, hends, -, -, -, hfailed⟩ :=
    (wait_spends_budget slowStart (Endpoint.longRunning 9090) 10 25 100 4 (by decide)).1
      (by decide +kernel) (by decide)
  have hrun : (Procedure.run (answering slowStart)
      (wait 10 25 4 (Endpoint.longRunning 9090)).run ⟨0, 100⟩).1 =
        .error (.timeout ⟨"faucet", 3333⟩) := by
    decide +kernel
  have hchecks : (checks (Procedure.moments (answering slowStart)
      (wait 10 25 4 (Endpoint.longRunning 9090)).run ⟨0, 100⟩)).map Prod.snd =
        [false, false, true, false, true, false] := by
    decide +kernel
  rw [hends.run_eq] at hrun
  obtain rfl : result = .error (.timeout ⟨"faucet", 3333⟩) := hrun
  rw [hends.checks_eq] at hchecks
  obtain ⟨endpoint, -, -, -, htime⟩ := hfailed nofun
  exact ⟨by decide, polls, after, hends, hchecks, htime⟩

end StackControl.Lifecycle.Readiness
