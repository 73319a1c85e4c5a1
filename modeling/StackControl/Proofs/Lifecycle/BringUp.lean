import Mathlib.Data.List.Forall2
import StackControl.Lifecycle.Host
import StackControl.Proofs.Lifecycle.Preparation
import StackControl.Proofs.Lifecycle.Readiness

/-!
# Bringing a stack up

A bring-up that says that the stack is running has prepared and started the group, found the primary
container, and asked inside it for each of the services until it accepted connections; it says so at
the very end.  A step that fails is the last one.
-/

namespace StackControl.Lifecycle

open Procedure (Answerer Exchange Moment)

variable {σ α : Type} {site : Site σ} {s : σ} {context : Context} {rebuild : Bool}

/-- A request to the engine, with its answer. -/
abbrev EngineExchange :=
  Exchange Engine.Request fun request => Except Engine.Error request.Result

/-- The engine's part in a moment. -/
def engineExchange? : Moment Call Call.Answer σ → Option EngineExchange
  | ⟨_, .engine request, answer⟩ => some ⟨request, answer⟩
  | _ => none

/-- What the engine was asked and answered, in order. -/
def engineExchanges (ms : List (Moment Call Call.Answer σ)) : List EngineExchange :=
  ms.filterMap engineExchange?

theorem engineExchanges_append (ms ms' : List (Moment Call Call.Answer σ)) :
    engineExchanges (ms ++ ms') = engineExchanges ms ++ engineExchanges ms' :=
  List.filterMap_append

theorem engineExchanges_engine (request : Engine.Request) (s : σ) :
    engineExchanges (site.moments (Flow.engine request) s) =
      [⟨request, (site.answer (.engine request) s).1⟩] := by
  rw [Site.moments_engine]
  rfl

/-! ## The readiness gate inside a container -/

/-- An exchange that checks, inside a container and without a terminal, whether an endpoint accepts
connections: it does if the check exits with zero. -/
def Checks (container : String) (check : Endpoint × Bool) (exchange : EngineExchange) : Prop :=
  ∃ answer : Except Engine.Error Int,
    exchange =
        ⟨.exec container ["nc", "-z", "-w1", check.1.service, toString check.1.port.toNat] false,
          answer⟩ ∧
      (check.2 = true ↔ answer = .ok 0)

theorem checkInside_eq (container : String) (endpoint : Endpoint) :
    checkInside container endpoint =
      (fun answer : Except Engine.Error Int => decide (answer = .ok 0)) <$>
        (Procedure.call (Call.engine (.exec container (reachabilityCommand endpoint) false)) :
          Activity (Except Engine.Error Int)) := by
  unfold checkInside
  rw [← bind_pure_comp]
  congr 1
  funext answer
  rcases answer with e | code
  · rfl
  · by_cases hcode : code = 0
    · rw [hcode]
      rfl
    · have hrefused : ¬(Except.ok code : Except Engine.Error Int) = .ok 0 := by simpa using hcode
      simp [hcode, hrefused]

theorem moments_checkInside (answerer : Answerer Call Call.Answer σ) (container : String)
    (endpoint : Endpoint) (s : σ) :
    Procedure.moments answerer (checkInside container endpoint) s =
      [⟨s, .engine (.exec container (reachabilityCommand endpoint) false),
        (answerer (.engine (.exec container (reachabilityCommand endpoint) false)) s).1⟩] := by
  rw [checkInside_eq, Procedure.moments_map]
  rfl

theorem checkInside_accepts_iff (answerer : Answerer Call Call.Answer σ) (container : String)
    (endpoint : Endpoint) (s : σ) :
    (Procedure.run answerer (checkInside container endpoint) s).1 = true ↔
      (answerer (.engine (.exec container (reachabilityCommand endpoint) false)) s).1 =
        .ok (0 : Int) := by
  rw [checkInside_eq, Procedure.run_map, decide_eq_true_iff]
  rfl

/-- What the gate asks inside a container are its checks. -/
theorem forall₂_checks (answerer : Answerer Call Call.Answer σ) (container : String)
    (p : Readiness.Activity α) (s : σ) :
    List.Forall₂ (Checks container)
      (Readiness.checks
        (p.moments (Procedure.answerBy answerer (readinessInside container)) s))
      (engineExchanges ((p.realise (readinessInside container)).moments answerer s)) := by
  rw [Procedure.moments_realise]
  induction p generalizing s with
  | done => exact .nil
  | ask call next ih =>
      rw [Procedure.moments, List.flatMap_cons, engineExchanges_append]
      cases call with
      | check endpoint =>
          rw [readinessInside, moments_checkInside]
          exact .cons ⟨_, rfl, checkInside_accepts_iff ..⟩ (ih _ _)
      | clock request => exact ih _ _

/-- A gate that was passed has checked the long-running services until they accepted. -/
theorem checks_awaitReadiness {container : String} {rpcPort : UInt16} {timeoutSecs patience : Nat}
    {after : σ}
    (h : site.result (awaitReadiness container rpcPort timeoutSecs patience) s = (.ok (), after)) :
    ∃ answers, Readiness.Accepted (Endpoint.longRunning rpcPort) answers ∧
      List.Forall₂ (Checks container) answers
        (engineExchanges (site.moments
          (awaitReadiness container rpcPort timeoutSecs patience) s)) := by
  rw [awaitReadiness, Site.result_demand, Procedure.run_realise] at h
  rw [awaitReadiness, Site.moments_demand]
  refine ⟨_, ?_, forall₂_checks site.answer container _ s⟩
  rcases hwait : Procedure.run (Procedure.answerBy site.answer (readinessInside container))
    (Readiness.wait Readiness.pollInterval (timeoutSecs * Readiness.second) patience
      (Endpoint.longRunning rpcPort)).run s with ⟨e | _, gated⟩
  · rw [hwait] at h
    cases h
  · exact Readiness.accepted_wait hwait

theorem only_awaitReadiness (container : String) (rpcPort : UInt16) (timeoutSecs patience : Nat) :
    (awaitReadiness container rpcPort timeoutSecs patience).run.Only fun call =>
      (∃ endpoint, call = .engine (.exec container (reachabilityCommand endpoint) false)) ∨
        ∃ request, call = .clock request := by
  apply only_demand
  apply Procedure.Only.realise
  intro call
  cases call with
  | check endpoint =>
      rw [readinessInside, checkInside_eq]
      exact (Procedure.only_call.mpr (.inl ⟨endpoint, rfl⟩)).map _
  | clock request => exact Procedure.only_call.mpr (.inr ⟨request, rfl⟩)

/-! ## Saying nothing -/

/-- A call that writes no line. -/
def IsQuiet : Call → Prop
  | .print _ _ => False
  | _ => True

theorem quiet_prepare (config : Config) (settings : StackSettings) (rebuild : Bool) :
    (prepare config settings rebuild).run.Only IsQuiet := by
  apply (only_prepare config settings rebuild).mono
  rintro call ((rfl | rfl) | (rfl | rfl | ⟨archive, rfl⟩) |
    (rfl | rfl | ⟨path, rfl⟩ | ⟨path, content, rfl⟩)) <;> trivial

theorem quiet_awaitReadiness (container : String) (rpcPort : UInt16) (timeoutSecs patience : Nat) :
    (awaitReadiness container rpcPort timeoutSecs patience).run.Only IsQuiet := by
  apply (only_awaitReadiness container rpcPort timeoutSecs patience).mono
  rintro call (⟨endpoint, rfl⟩ | ⟨request, rfl⟩) <;> trivial

/-! ## The course of a bring-up -/

/-- What the engine was asked until every service had answered: what the preparation asked for,
which succeeded, one start of the group, one search for the primary container, and in it the checks
of the services until each of them accepted. -/
def Answered (site : Site σ) (context : Context) (rebuild : Bool) (s : σ)
    (exchanges : List EngineExchange) : Prop :=
  ∃ report container answers checks,
    (site.result (prepare context.config context.settings rebuild) s).1 = .ok report ∧
      Readiness.Accepted
        [⟨"solana", 8899⟩, ⟨"proxy", context.config.rpcPort⟩, ⟨"faucet", 3333⟩] answers ∧
      List.Forall₂ (Checks container) answers checks ∧
      exchanges =
        engineExchanges (site.moments (prepare context.config context.settings rebuild) s) ++
          ⟨.up context.group, .ok ()⟩ ::
            ⟨.runningContainer context.group "proxy", .ok (some container)⟩ :: checks

/-- The moments of a bring-up, and what it ends with: it breaks off quietly, or says that the stack
is running when every service has answered. -/
inductive Course (site : Site σ) (context : Context) (rebuild : Bool) (s : σ) :
    List (Moment Call Call.Answer σ) → Except Error Outcome → Prop
  | broken {ms : List (Moment Call Call.Answer σ)} (e : Error) (hquiet : ∀ m ∈ ms, IsQuiet m.call) :
      Course site context rebuild s ms (.error e)
  | said {ms : List (Moment Call Call.Answer σ)} (state : σ) (answer : Except Errno Unit)
      (result : Except Error Outcome) (hquiet : ∀ m ∈ ms, IsQuiet m.call)
      (hanswered : Answered site context rebuild s (engineExchanges ms)) :
      Course site context rebuild s
        (ms ++ [⟨state, .print .stdout (runningLine context), answer⟩]) result

/-- A quiet step is the last one if it fails. -/
theorem course_bind {flow : Flow α} {rest : α → Flow Outcome}
    {ms : List (Moment Call Call.Answer σ)} {now : σ} (hms : ∀ m ∈ ms, IsQuiet m.call)
    (hflow : flow.run.Only IsQuiet)
    (hrest : ∀ a after, site.result flow now = (.ok a, after) →
      (∀ m ∈ ms ++ site.moments flow now, IsQuiet m.call) →
      Course site context rebuild s (ms ++ site.moments flow now ++ site.moments (rest a) after)
        (site.result (rest a) after).1) :
    Course site context rebuild s (ms ++ site.moments (flow >>= rest) now)
      (site.result (flow >>= rest) now).1 := by
  have hquiet : ∀ m ∈ ms ++ site.moments flow now, IsQuiet m.call := by
    intro m hm
    rcases List.mem_append.mp hm with hm | hm
    · exact hms m hm
    · exact hflow.mem_moments hm
  rw [Site.moments_bind, Site.result_bind, ← List.append_assoc]
  rcases hresult : site.result flow now with ⟨e | a, after⟩
  · rw [List.append_nil]
    exact .broken e hquiet
  · exact hrest a after hresult hquiet

theorem quiet_runningPrimary (group : ServiceGroup) :
    (runningPrimary group).run.Only IsQuiet := by
  unfold runningPrimary
  apply Procedure.Only.bind_run (only_engine trivial)
  intro answer
  cases answer <;> trivial

theorem moments_runningPrimary (group : ServiceGroup) (s : σ) :
    site.moments (runningPrimary group) s =
      [⟨s, .engine (.runningContainer group Service.primaryName),
        (site.answer (.engine (.runningContainer group Service.primaryName)) s).1⟩] := by
  rw [runningPrimary, Site.moments_bind, Site.moments_engine]
  split
  next answer after _ => cases answer <;> rfl
  next => rfl

theorem answer_of_runningPrimary {group : ServiceGroup} {container : String} {after : σ}
    (h : site.result (runningPrimary group) s = (.ok container, after)) :
    (site.answer (.engine (.runningContainer group Service.primaryName)) s).1 =
      .ok (some container) := by
  rw [runningPrimary, Site.result_bind, Site.result_engine] at h
  rcases hanswer : (site.answer (.engine (.runningContainer group Service.primaryName)) s).1 with
    e | _ | found
  · rw [hanswer] at h
    cases h
  · rw [hanswer] at h
    cases h
  · rw [hanswer] at h
    cases h
    rfl

theorem course_bringUp (site : Site σ) (context : Context) (rebuild : Bool) (s : σ) :
    Course site context rebuild s (site.moments (bringUp context rebuild) s)
      (site.result (bringUp context rebuild) s).1 := by
  rw [← List.nil_append (site.moments _ _), bringUp]
  apply course_bind (by simp) (quiet_prepare _ _ _)
  intro report prepared hprepare hquiet
  apply course_bind hquiet (only_engine trivial)
  intro _ raised hup hquiet
  apply course_bind hquiet (quiet_runningPrimary _)
  intro container located hcontainer hquiet
  apply course_bind hquiet (quiet_awaitReadiness _ _ _ _)
  intro _ ready hready hquiet
  obtain ⟨answers, haccepted, hchecks⟩ := checks_awaitReadiness hready
  have hsaid : site.moments (do
      Flow.say (runningLine context)
      return .reached .running : Flow Outcome) ready =
        [⟨ready, .print .stdout (runningLine context),
          (site.answer (.print .stdout (runningLine context)) ready).1⟩] := by
    rw [Site.moments_bind]
    split <;> rfl
  rw [hsaid]
  apply Course.said ready _ _ hquiet
  have hstarted : engineExchanges (site.moments
      (Flow.engine (.up context.group) : Flow Unit) prepared) = [⟨.up context.group, .ok ()⟩] := by
    have hanswer := (Site.answer_of_result_engine _ hup).1
    exact (engineExchanges_engine (.up context.group) prepared).trans (by rw [hanswer])
  have hfound : engineExchanges (site.moments (runningPrimary context.group) raised) =
      [⟨.runningContainer context.group Service.primaryName, .ok (some container)⟩] := by
    rw [moments_runningPrimary, answer_of_runningPrimary hcontainer]
    rfl
  refine ⟨report, container, answers, _, by rw [hprepare], haccepted, hchecks, ?_⟩
  rw [engineExchanges_append, engineExchanges_append, engineExchanges_append, hstarted, hfound,
    List.nil_append, List.append_assoc, List.append_assoc]
  rfl

/-! ## What a bring-up claims -/

theorem eq_last_of_not {β : Type} {p : β → Prop} {xs before after : List β} {x last : β}
    (hxs : ∀ y ∈ xs, p y) (hx : ¬p x) (h : before ++ x :: after = xs ++ [last]) :
    before = xs ∧ x = last ∧ after = [] := by
  rcases List.append_eq_append_iff.mp h with ⟨middle, rfl, hmiddle⟩ | ⟨middle, rfl, hmiddle⟩
  · cases middle with
    | nil =>
        cases hmiddle
        exact ⟨(List.append_nil before).symm, rfl, rfl⟩
    | cons y middle =>
        have hy := hxs y (by simp)
        rw [← (List.cons.inj hmiddle).1] at hy
        exact absurd hy hx
  · cases middle with
    | nil =>
        cases hmiddle
        exact ⟨List.append_nil xs, rfl, rfl⟩
    | cons y middle =>
        have hnil := (List.cons.inj hmiddle).2
        simp at hnil

/-- The only thing that is written comes last, when every service has answered. -/
theorem answered_of_print {before after : List (Moment Call Call.Answer σ)}
    {m : Moment Call Call.Answer σ} {line : String}
    (hmoments : site.moments (bringUp context rebuild) s = before ++ m :: after)
    (hprint : m.call = .print .stdout line) :
    line = runningLine context ∧ after = [] ∧
      Answered site context rebuild s (engineExchanges before) := by
  have hloud : ¬IsQuiet m.call := by
    rw [hprint]
    exact id
  have hcourse := course_bringUp site context rebuild s
  rw [hmoments] at hcourse
  generalize hms : before ++ m :: after = ms at hcourse
  generalize (site.result (bringUp context rebuild) s).1 = result at hcourse
  cases hcourse with
  | broken e hquiet =>
      have hmem : m ∈ ms := by
        rw [← hms]
        simp
      exact absurd (hquiet m hmem) hloud
  | said state answer _ hquiet hanswered =>
      obtain ⟨rfl, rfl, hafter⟩ := eq_last_of_not hquiet hloud hms
      cases hprint
      exact ⟨rfl, hafter, hanswered⟩

theorem exchanges_unprepared {e : Error}
    (h : (site.result (prepare context.config context.settings rebuild) s).1 = .error e) :
    engineExchanges (site.moments (bringUp context rebuild) s) =
      engineExchanges (site.moments (prepare context.config context.settings rebuild) s) := by
  rw [bringUp, Site.moments_bind]
  rcases hprepare : site.result (prepare context.config context.settings rebuild) s with
    ⟨e' | report, prepared⟩
  · rw [List.append_nil]
  · rw [hprepare] at h
    cases h

theorem exchanges_not_started {report : PrerequisiteReport} {prepared : σ} {e : Engine.Error}
    (hprepare : site.result (prepare context.config context.settings rebuild) s =
      (.ok report, prepared))
    (hup : (site.answer (.engine (.up context.group)) prepared).1 = .error e) :
    engineExchanges (site.moments (bringUp context rebuild) s) =
      engineExchanges (site.moments (prepare context.config context.settings rebuild) s) ++
        [⟨.up context.group, .error e⟩] := by
  have hfailed : site.result (Flow.engine (.up context.group) : Flow Unit) prepared =
      (.error (.engine e), (site.answer (.engine (.up context.group)) prepared).2) := by
    show ((site.answer (.engine (.up context.group)) prepared).1.mapError Error.engine, _) = _
    rw [hup]
    rfl
  have hasked : engineExchanges (site.moments
      (Flow.engine (.up context.group) : Flow Unit) prepared) =
        [⟨.up context.group, .error e⟩] := by
    exact (engineExchanges_engine (.up context.group) prepared).trans (by rw [hup])
  rw [bringUp, Site.moments_bind, hprepare, engineExchanges_append]
  dsimp only
  rw [Site.moments_bind, hfailed, List.append_nil, hasked]

/-- A bring-up that ends with a running stack has had an answer from every service, after all that
the engine had to do before; a step that fails is the engine's last; and the line that says that the
stack is running is written only when every service has answered. -/
theorem bringUp_answered (site : Site σ) (context : Context) (rebuild : Bool) (s : σ) :
    ((site.result (bringUp context rebuild) s).1 = .ok (.reached .running) →
      Answered site context rebuild s
        (engineExchanges (site.moments (bringUp context rebuild) s))) ∧
      (∀ e, (site.result (prepare context.config context.settings rebuild) s).1 = .error e →
        engineExchanges (site.moments (bringUp context rebuild) s) =
          engineExchanges
            (site.moments (prepare context.config context.settings rebuild) s)) ∧
      (∀ report prepared e,
        site.result (prepare context.config context.settings rebuild) s = (.ok report, prepared) →
        (site.answer (.engine (.up context.group)) prepared).1 = .error e →
          engineExchanges (site.moments (bringUp context rebuild) s) =
            engineExchanges
                (site.moments (prepare context.config context.settings rebuild) s) ++
              [⟨.up context.group, .error e⟩]) ∧
      ∀ before m after line,
        site.moments (bringUp context rebuild) s = before ++ m :: after →
        m.call = .print .stdout line →
          line = runningLine context ∧ after = [] ∧
            Answered site context rebuild s (engineExchanges before) := by
  refine ⟨?_, fun _ => exchanges_unprepared, fun _ _ _ => exchanges_not_started,
    fun _ _ _ _ => answered_of_print⟩
  intro hrunning
  have hcourse := course_bringUp site context rebuild s
  rw [hrunning] at hcourse
  generalize site.moments (bringUp context rebuild) s = ms at hcourse
  cases hcourse with
  | said state answer _ _ hanswered =>
      rw [engineExchanges_append]
      exact (List.append_nil _).symm ▸ hanswered

/-- A context on a host with the settings of a published revision. -/
def publishedContext : Context where
  config := {}
  configurationArguments := [Utf8.encode "stackctl"]
  settings := .resolve .none fun _ => none
  execution := .host
  patience := 1

/-- Others among which the engine has and starts everything, and every service answers at once. -/
def starting : Answerer Call Call.Answer Unit :=
  Site.engineAlone fun
    | .imageExists _ => .ok true
    | .up _ => .ok ()
    | .runningContainer _ _ => .ok (some "proxy-1")
    | .exec _ _ _ => .ok 0
    | _ => .error (.missingContainerId "")

/-- Where every service answers at once the stack comes up, and each service was asked. -/
theorem answered_published :
    Answered (Site.beside starting) publishedContext false ((), FileTree.empty [])
      (engineExchanges ((Site.beside starting).moments (bringUp publishedContext false)
        ((), FileTree.empty []))) := by
  have hrunning : ((Site.beside starting).result (bringUp publishedContext false)
      ((), FileTree.empty [])).1 = .ok (.reached .running) := by
    decide +kernel
  exact (bringUp_answered (Site.beside starting) publishedContext false
    ((), FileTree.empty [])).1 hrunning

end StackControl.Lifecycle
