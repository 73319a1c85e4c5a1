import StackControl.Lifecycle.Realisation
import StackControl.Proofs.Reaper.Realisation

/-!
# The processes of the service

In the managed runtime, stopping the service signals exactly what its patterns select in the first
listing that was brought in, and a shell is refused for want of the service exactly when they select
nothing in it.
-/

namespace StackControl.Lifecycle

open Procedure (Answerer Moment)
open Reaper (FoundIn IsAside listings matching signalNumbers signalled)

variable {σ α : Type} {os : Answerer Machine.Call Machine.Call.Answer σ} {context : Context}
  {ownPid : Nat}

/-! ## What calls come down to -/

/-- Who answers the calls of lifecycle commands on a machine, beside the tool gate. -/
def onMachine (os : Answerer Machine.Call Machine.Call.Answer σ) (config : Config) :
    Answerer Call Call.Answer (σ × Reaper.ToolGate) :=
  Procedure.answerWith os (perform config)

/-- The moments on a machine of the moments of a lifecycle command. -/
def machineMoments (os : Answerer Machine.Call Machine.Call.Answer σ) (config : Config)
    (ms : List (Moment Call Call.Answer (σ × Reaper.ToolGate))) :
    List (Moment Machine.Call Machine.Call.Answer σ) :=
  ms.flatMap fun m => ((perform config m.call).run m.state.2).moments os m.state.1

theorem moments_handleOnMachine (command : Command) (s : σ) :
    Procedure.moments os (handleOnMachine context command) s =
      machineMoments os context.config
        (Procedure.moments (onMachine os context.config) (handle context command).run
          (s, .processLister)) := by
  rw [handleOnMachine, Procedure.moments_bind, Procedure.moments_realiseWith]
  exact List.append_nil _

theorem run_handleOnMachine (command : Command) (s : σ) :
    (Procedure.run os (handleOnMachine context command) s).1 =
      (Procedure.run (onMachine os context.config) (handle context command).run
        (s, .processLister)).1 := by
  rw [handleOnMachine, Procedure.run_bind, Procedure.run_realiseWith]
  rfl

/-- A call of a lifecycle command that neither lists nor signals processes on a machine. -/
def IsBeside : Call → Prop
  | .print _ _ | .runner _ => True
  | _ => False

theorem only_runner (request : Runner.Request) : (Runner.perform request).run.Only IsAside := by
  have hlaunch : (Machine.launch (.plain request.line.program request.line.arguments)
      request.manner).Only IsAside := by
    cases request <;> exact Procedure.only_call.mpr trivial
  apply Procedure.Only.bind_run (hlaunch.map _)
  intro answer
  cases answer <;> trivial

theorem isAside_machineMoments {config : Config}
    {ms : List (Moment Call Call.Answer (σ × Reaper.ToolGate))} (h : ∀ m ∈ ms, IsBeside m.call) :
    ∀ m ∈ machineMoments os config ms, IsAside m.call := by
  intro m hm
  obtain ⟨m', hm', hm⟩ := List.mem_flatMap.mp hm
  have hbeside := h m' hm'
  have honly : ((perform config m'.call).run m'.state.2).Only IsAside := by
    obtain ⟨state, call, answer⟩ := m'
    cases call with
    | print stream line => exact (Procedure.only_call.mpr trivial).bind fun _ => trivial
    | runner request => exact (only_runner request).bind fun _ => trivial
    | _ => cases hbeside
  exact honly.mem_moments hm

theorem foundIn_find (hown : ∀ s, (os .ownPid s).1 = ownPid) (config : Config)
    (patterns : List String) (s : σ) (gate : Reaper.ToolGate) :
    FoundIn patterns ownPid
      (machineMoments os config
        (Procedure.moments (onMachine os config)
          (Procedure.call (Call.processes (.find patterns))) (s, gate)))
      (onMachine os config (.processes (.find patterns)) (s, gate)).1 := by
  have hsearch := Reaper.search_findMatching (Procedure.answerBy os Reaper.perform) patterns gate s
  have hfound := Reaper.foundIn_search hown hsearch fun m hm =>
    Procedure.answer_of_mem_moments hm
  rw [Reaper.onMachine, ← Procedure.moments_realise, ← Procedure.run_realise] at hfound
  rw [machineMoments]
  show FoundIn patterns ownPid (_ ++ []) _
  rw [List.append_nil]
  exact hfound

theorem signalled_kill (hown : ∀ s, (os .ownPid s).1 = ownPid) (config : Config)
    (patterns : List String) (s : σ) (gate : Reaper.ToolGate) (ms)
    (hms : ms = machineMoments os config
        (Procedure.moments (onMachine os config)
          (Procedure.call (Call.processes (.kill patterns))) (s, gate))) :
    signalled ms =
      (listings ms).head?.elim [] fun listing =>
        signalNumbers (matching listing patterns ownPid) := by
  have hpass := Reaper.pass_killMatching (Procedure.answerBy os Reaper.perform) patterns gate s
  have hsignalled := Reaper.signalled_pass hown hpass fun m hm =>
    Procedure.answer_of_mem_moments hm
  rw [Reaper.onMachine, ← Procedure.moments_realise] at hsignalled
  have hkill : ms = Procedure.moments os
      (((Reaper.killMatching patterns).run.run gate).realise Reaper.perform) s := by
    rw [hms]
    exact List.append_nil _
  rw [hkill]
  exact hsignalled

/-! ## Stopping the service and opening a shell -/

theorem only_print (stream : Machine.OutputStream) (line : String) :
    (Flow.print stream line).run.Only IsBeside :=
  (Procedure.only_call.mpr trivial).map _

theorem only_reportSurvivors (handles : List Reaper.ProcessHandle) :
    (reportSurvivors handles).run.Only IsBeside := by
  induction handles with
  | nil => trivial
  | cons handle rest ih => exact (only_print _ _).bind_run fun _ => ih

/-- After a request about processes, nothing more is listed or signalled. -/
theorem exists_later (os : Answerer Machine.Call Machine.Call.Answer σ) (config : Config)
    (request : ProcessRequest) {rest : request.Result → Flow α}
    (hrest : ∀ a, (rest a).run.Only IsBeside) (st : σ × Reaper.ToolGate) :
    ∃ later, (∀ m ∈ later, IsAside m.call) ∧
      machineMoments os config
          (Procedure.moments (onMachine os config) (Flow.processes request >>= rest).run st) =
        machineMoments os config
            (Procedure.moments (onMachine os config)
              (Procedure.call (Call.processes request)) st) ++ later := by
  rw [Procedure.moments_bind_run, machineMoments, List.flatMap_append]
  refine ⟨_, isAside_machineMoments ?_, rfl⟩
  intro m hm
  split at hm
  next a after _ => exact (hrest a).mem_moments hm
  next => cases hm

/-- Stopping the service signals what its patterns select in the first listing. -/
theorem signalled_stop (hown : ∀ s, (os .ownPid s).1 = ownPid)
    (hmanaged : context.execution = .managed) (forward : Bool) (s : σ) :
    signalled (Procedure.moments os (handleOnMachine context (.stop forward)) s) =
      (listings
          (Procedure.moments os (handleOnMachine context (.stop forward)) s)).head?.elim []
        fun listing =>
          signalNumbers (matching listing (servicePatterns context.config) ownPid) := by
  have hhandle : handle context (.stop forward) = stopService context.config := by
    rw [handle, hmanaged]
    rfl
  have hreport (report : Reaper.Report) : (do
      if report.isNoop then
        Flow.say "service is not running"
      else
        Flow.say ("sent termination signal to " ++ toString report.matched.length ++
          " process(es)")
      reportSurvivors report.survivors
      return .reached .stopped : Flow Outcome).run.Only IsBeside := by
    split
    all_goals
      apply (only_print _ _).bind_run
      intro _
      exact (only_reportSurvivors _).bind_run fun _ => trivial
  obtain ⟨later, hlater, hmoments⟩ := exists_later os context.config
    (.kill (servicePatterns context.config)) hreport (s, .processLister)
  rw [moments_handleOnMachine, hhandle, stopService, hmoments, Reaper.signalled_append,
    Reaper.listings_append, Reaper.signalled_eq_nil hlater, Reaper.listings_eq_nil hlater,
    List.append_nil, List.append_nil]
  exact signalled_kill hown _ _ _ _ _ rfl

/-- What opening a shell does once the processes of the service were looked for. -/
def shellAfter (config : Config) (found : List Reaper.ProcessHandle) : Flow Outcome := do
  if found.isEmpty then
    throw .serviceNotRunning
  let shell ← Flow.commandLine config.shellCommand
  return .exit (← Flow.runner (.run shell))

theorem only_shellAfter (config : Config) (found : List Reaper.ProcessHandle) :
    (shellAfter config found).run.Only IsBeside := by
  have hrunner (line : CommandLine) : (Flow.runner (.run line)).run.Only IsBeside :=
    (Procedure.only_call.mpr trivial).map _
  unfold shellAfter
  split
  · trivial
  · apply Procedure.Only.bind_run
    · trivial
    · intro line
      exact (hrunner line).bind_run fun _ => trivial

theorem shellAfter_refused_iff (config : Config) (answerer : Answerer Call Call.Answer σ)
    (found : List Reaper.ProcessHandle) (s : σ) :
    (Procedure.run answerer (shellAfter config found).run s).1 = .error .serviceNotRunning ↔
      found = [] := by
  unfold shellAfter
  by_cases hfound : found = []
  · subst hfound
    exact ⟨fun _ => rfl, fun _ => rfl⟩
  · rw [if_neg (by simpa using hfound), Procedure.run_bind_run]
    refine ⟨fun h => ?_, fun h => absurd h hfound⟩
    have hline : Procedure.run answerer (Flow.commandLine config.shellCommand).run s =
        ((Runner.commandLine config.shellCommand).mapError .runner, s) := rfl
    rw [hline] at h
    rcases hcommand : Runner.commandLine config.shellCommand with e | line
    · rw [hcommand] at h
      cases h
    · rw [hcommand] at h
      dsimp only [Except.mapError] at h
      rw [Procedure.run_bind_run] at h
      have hrunner : Procedure.run answerer (Flow.runner (.run line)).run s =
          ((answerer (.runner (.run line)) s).1.mapError .runner,
            (answerer (.runner (.run line)) s).2) := Procedure.run_map ..
      rw [hrunner] at h
      rcases hcode : (answerer (.runner (.run line)) s).1 with e | code
      · rw [hcode] at h
        cases h
      · rw [hcode] at h
        cases h

/-- A shell is refused for want of the service when its patterns select nothing in the listing. -/
theorem shell_refused_iff (hown : ∀ s, (os .ownPid s).1 = ownPid)
    (hmanaged : context.execution = .managed) (s : σ) :
    (Procedure.run os (handleOnMachine context .shell) s).1 = .error .serviceNotRunning ↔
      ∃ listing,
        (listings (Procedure.moments os (handleOnMachine context .shell) s)).head? = some listing ∧
          matching listing (servicePatterns context.config) ownPid = [] := by
  have hhandle : handle context .shell =
      (Flow.processes (.find (servicePatterns context.config)) >>= shellAfter context.config) := by
    rw [handle, hmanaged]
    rfl
  have hfound := foundIn_find hown context.config (servicePatterns context.config) s .processLister
  obtain ⟨later, hlater, hmoments⟩ := exists_later os context.config
    (.find (servicePatterns context.config)) (only_shellAfter context.config) (s, .processLister)
  have hlistings := congrArg listings hmoments
  rw [Reaper.listings_append, Reaper.listings_eq_nil hlater, List.append_nil] at hlistings
  have hrun : Procedure.run (onMachine os context.config)
      (Flow.processes (.find (servicePatterns context.config))).run (s, .processLister) = _ :=
    Procedure.run_map ..
  rw [run_handleOnMachine, moments_handleOnMachine, hhandle, hlistings, Procedure.run_bind_run,
    hrun]
  obtain ⟨hnone, e, he⟩ | ⟨listing, hone, hresult⟩ := hfound
  · have hfailed : (Procedure.run (onMachine os context.config)
        (Procedure.call (Call.processes (.find (servicePatterns context.config))))
          (s, .processLister)).1 = .error e := he
    rw [hfailed, hnone]
    constructor
    · intro hrefused
      cases hrefused
    · rintro ⟨listing, hlisting, -⟩
      cases hlisting
  · have hfound : (Procedure.run (onMachine os context.config)
        (Procedure.call (Call.processes (.find (servicePatterns context.config))))
          (s, .processLister)).1 =
            .ok (matching listing (servicePatterns context.config) ownPid) := hresult
    rw [hfound, hone]
    dsimp only [Except.mapError]
    rw [shellAfter_refused_iff]
    constructor
    · intro hnone
      exact ⟨listing, rfl, hnone⟩
    · rintro ⟨listing', hlisting, hnone⟩
      rw [Option.some.inj hlisting]
      exact hnone

end StackControl.Lifecycle
