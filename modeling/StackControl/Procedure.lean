/-!
# Procedures

A procedure is a program that can only act by asking: it ends with a value, or makes a call and
continues from the answer.  What it does is thereby separate from who answers.  Answered from a
state, it has a result and a trace of the calls that were made; answered by another procedure, it
becomes one over the calls of that other.
-/

namespace StackControl

/-- A program that makes calls, each of which has a type of answers. -/
inductive Procedure (Call : Type) (Answer : Call → Type) (α : Type) : Type
  | done (value : α)
  | ask (call : Call) (next : Answer call → Procedure Call Answer α)

namespace Procedure

variable {Call : Type} {Answer : Call → Type} {α β γ σ : Type}

/-- Continues where a procedure ends. -/
def bind : Procedure Call Answer α → (α → Procedure Call Answer β) → Procedure Call Answer β
  | done value, f => f value
  | ask call next, f => ask call fun answer => (next answer).bind f

instance : Monad (Procedure Call Answer) where
  pure := done
  bind := bind

@[simp] theorem pure_eq_done (value : α) :
    (pure value : Procedure Call Answer α) = done value := rfl

@[simp] theorem done_bind (value : α) (f : α → Procedure Call Answer β) :
    done value >>= f = f value := rfl

@[simp] theorem ask_bind
    (call : Call) (next : Answer call → Procedure Call Answer α)
    (f : α → Procedure Call Answer β) :
    ask call next >>= f = ask call fun answer => next answer >>= f := rfl

theorem bind_done (p : Procedure Call Answer α) : p >>= done = p := by
  induction p with
  | done => rfl
  | ask call next ih => simp [ih]

theorem bind_bind
    (p : Procedure Call Answer α) (f : α → Procedure Call Answer β)
    (g : β → Procedure Call Answer γ) :
    p >>= f >>= g = p >>= fun a => f a >>= g := by
  induction p with
  | done => rfl
  | ask call next ih => simp [ih]

instance : LawfulMonad (Procedure Call Answer) :=
  LawfulMonad.mk' _ (fun p => bind_done p) (fun _ _ => rfl) bind_bind

/-- Makes one call and ends with its answer. -/
def call (c : Call) : Procedure Call Answer (Answer c) :=
  ask c done

/-- Who answers calls: an answer and the next state, from the state so far. -/
abbrev Answerer (Call : Type) (Answer : Call → Type) (σ : Type) :=
  (call : Call) → σ → Answer call × σ

/-- A call and its answer. -/
abbrev Exchange (Call : Type) (Answer : Call → Type) :=
  Sigma Answer

/-- What a procedure ends with when it is answered from a state. -/
def run (answerer : Answerer Call Answer σ) : Procedure Call Answer α → σ → α × σ
  | done value, s => (value, s)
  | ask call next, s =>
    let (answer, after) := answerer call s
    (next answer).run answerer after

/-- The calls that a procedure makes, with their answers, in order. -/
def trace (answerer : Answerer Call Answer σ) :
    Procedure Call Answer α → σ → List (Exchange Call Answer)
  | done _, _ => []
  | ask call next, s =>
    let (answer, after) := answerer call s
    ⟨call, answer⟩ :: (next answer).trace answerer after

@[simp] theorem run_done (answerer : Answerer Call Answer σ) (value : α) (s : σ) :
    (done value : Procedure Call Answer α).run answerer s = (value, s) := rfl

theorem run_ask (answerer : Answerer Call Answer σ) (call : Call)
    (next : Answer call → Procedure Call Answer α) (s : σ) :
    (ask call next).run answerer s =
      (next (answerer call s).1).run answerer (answerer call s).2 := rfl

theorem trace_ask (answerer : Answerer Call Answer σ) (call : Call)
    (next : Answer call → Procedure Call Answer α) (s : σ) :
    (ask call next).trace answerer s =
      ⟨call, (answerer call s).1⟩ ::
        (next (answerer call s).1).trace answerer (answerer call s).2 := rfl

theorem run_bind
    (answerer : Answerer Call Answer σ) (p : Procedure Call Answer α)
    (f : α → Procedure Call Answer β) (s : σ) :
    (p >>= f).run answerer s =
      (f (p.run answerer s).1).run answerer (p.run answerer s).2 := by
  induction p generalizing s with
  | done => rfl
  | ask call next ih => simp only [ask_bind, run, ih]

theorem trace_bind
    (answerer : Answerer Call Answer σ) (p : Procedure Call Answer α)
    (f : α → Procedure Call Answer β) (s : σ) :
    (p >>= f).trace answerer s =
      p.trace answerer s ++
        (f (p.run answerer s).1).trace answerer (p.run answerer s).2 := by
  induction p generalizing s with
  | done => rfl
  | ask call next ih => simp only [ask_bind, trace, run, ih, List.cons_append]

variable {Call' : Type} {Answer' : Call' → Type}

/-- Lets every call be answered by a procedure over other calls. -/
def realise (f : (call : Call) → Procedure Call' Answer' (Answer call)) :
    Procedure Call Answer α → Procedure Call' Answer' α
  | done value => done value
  | ask call next => f call >>= fun answer => (next answer).realise f

/-- Lets every call be answered by a procedure over other calls that carries a state along. -/
def realiseWith (f : (call : Call) → StateT σ (Procedure Call' Answer') (Answer call)) :
    Procedure Call Answer α → StateT σ (Procedure Call' Answer') α
  | done value => pure value
  | ask call next => f call >>= fun answer => (next answer).realiseWith f

end Procedure

/-- Carries out an action that can fail and keeps what came of it as a value. -/
def outcomeOf {m : Type → Type} [Monad m] {ε α : Type} (action : ExceptT ε m α) :
    ExceptT ε m (Except ε α) :=
  ExceptT.mk (Except.ok <$> action.run)

end StackControl
