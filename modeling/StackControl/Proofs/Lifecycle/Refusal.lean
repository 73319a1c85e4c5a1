import StackControl.Proofs.Lifecycle.BringUp
import StackControl.Proofs.Lifecycle.Forwarding
import StackControl.Proofs.Lifecycle.Stamping

/-!
# Refused commands

A command that belongs to the other context is refused before anything is called, and no other
command is: whatever else goes wrong has a cause of its own.  A forwarded command that finds no
container makes no call beyond the search for it.
-/

namespace StackControl.Lifecycle

variable {σ α β ε : Type} {site : Site σ} {flow : Flow α}

/-- Whether a command belongs to the other context. -/
def Command.isRefused (command : Command) : ExecutionContext → Bool
  | .host => (command matches .start | .stop false)
  | .managed => (command matches .up _ | .down | .destroy | .status | .logs _)

/-! ## Errors that are no refusals -/

/-- A flow does not fail as a refused command does. -/
def NeverRefuses (site : Site σ) (flow : Flow α) : Prop :=
  ∀ s e, (site.result flow s).1 = .error e → e.isUsage = false

theorem neverRefuses_pure (a : α) : NeverRefuses site (pure a) := by
  intro s e h
  cases h

theorem neverRefuses_throw {e : Error} (he : e.isUsage = false) :
    NeverRefuses site (throw e : Flow α) := by
  intro s e' h
  cases h
  exact he

theorem NeverRefuses.bind {f : α → Flow β} (hflow : NeverRefuses site flow)
    (hf : ∀ a, NeverRefuses site (f a)) :
    NeverRefuses site (flow >>= f) := by
  intro s e h
  rw [Site.result_bind] at h
  rcases hresult : site.result flow s with ⟨e' | a, after⟩
  · rw [hresult] at h
    cases h
    exact hflow s e (by rw [hresult])
  · rw [hresult] at h
    exact hf a after e h

theorem neverRefuses_demand {toError : ε → Error} (htoError : ∀ e, (toError e).isUsage = false)
    (action : Activity (Except ε α)) :
    NeverRefuses site (Flow.demand toError action) := by
  intro s e h
  rw [Site.result_demand] at h
  rcases hresult : (Procedure.run site.answer action s).1 with e' | a
  · rw [hresult] at h
    cases h
    exact htoError e'
  · rw [hresult] at h
    cases h

theorem neverRefuses_liftM (activity : Activity α) :
    NeverRefuses site (liftM activity : Flow α) := by
  intro s e h
  rw [Site.result_liftM] at h
  cases h

theorem neverRefuses_engine (request : Engine.Request) :
    NeverRefuses site (Flow.engine request) :=
  neverRefuses_demand (fun _ => rfl) _

theorem neverRefuses_runner (request : Runner.Request) :
    NeverRefuses site (Flow.runner request) :=
  neverRefuses_demand (fun _ => rfl) _

theorem neverRefuses_print (stream : Machine.OutputStream) (line : String) :
    NeverRefuses site (Flow.print stream line) :=
  neverRefuses_demand (fun _ => rfl) _

theorem neverRefuses_commandLine (raw : String) : NeverRefuses site (Flow.commandLine raw) := by
  intro s e h
  have hline : (Runner.commandLine raw).mapError Error.runner = .error e := h
  rcases hcommand : Runner.commandLine raw with e' | line
  · rw [hcommand] at hline
    cases hline
    rfl
  · rw [hcommand] at hline
    cases hline

/-! ## Commands on the host -/

theorem neverRefuses_pullIfMissing (settings : StackSettings) :
    NeverRefuses site (pullIfMissing settings) := by
  unfold pullIfMissing
  split
  · exact neverRefuses_pure _
  · apply (neverRefuses_engine _).bind
    intro present
    split
    · exact neverRefuses_pure _
    · exact (neverRefuses_engine _).bind fun _ => neverRefuses_pure _

theorem neverRefuses_fetchIfNeeded (directory image : String) :
    NeverRefuses site (fetchIfNeeded directory image) := by
  have hneeds : NeverRefuses site (needsContracts directory) := by
    apply (neverRefuses_liftM _).bind
    intro answer
    split
    · exact neverRefuses_pure _
    · split
      · exact neverRefuses_pure _
      · exact neverRefuses_throw rfl
    · exact neverRefuses_throw rfl
  have hunpack (fault : Archive.UnpackFault) : (unpackError directory fault).isUsage = false := by
    cases fault <;> rfl
  apply hneeds.bind
  intro needed
  cases needed with
  | false => exact neverRefuses_pure _
  | true =>
      apply (neverRefuses_engine _).bind
      intro archive
      exact (neverRefuses_demand hunpack _).bind fun _ => neverRefuses_pure _

theorem neverRefuses_buildStamped (template : String) (settings : StackSettings) :
    NeverRefuses site (buildStamped template settings) := by
  intro s e h
  have hbuilt (s : σ) (stamped : Bool) (e : Error) (h : site.built settings s stamped = .error e) :
      e.isUsage = false := by
    rw [Site.built] at h
    rcases hanswer : (site.answer (.engine (.build (proxyBuild settings))) s).1 with e' | _
    · rw [hanswer] at h
      cases h
      rfl
    · rw [hanswer] at h
      cases h
  have hstamping := stamping_buildStamped site template settings s
  generalize site.result (buildStamped template settings) s = result,
    site.moments (buildStamped template settings) s = moments at h hstamping
  cases hstamping with
  | unread | unwritten =>
      cases h
      rfl
  | unstamped | stamped => exact hbuilt _ _ _ h

theorem neverRefuses_prepare (config : Config) (settings : StackSettings) (rebuild : Bool) :
    NeverRefuses site (prepare config settings rebuild) := by
  cases hlocal : settings.isLocal with
  | false =>
      rw [prepare_of_not_isLocal hlocal]
      exact (neverRefuses_pullIfMissing _).bind fun _ => neverRefuses_pure _
  | true =>
      rw [prepare_of_isLocal hlocal]
      apply (neverRefuses_pullIfMissing _).bind
      intro pulled
      apply (neverRefuses_fetchIfNeeded _ _).bind
      intro fetched
      have hbuild (present : Bool) :
          NeverRefuses site (buildUnlessPresent config settings pulled fetched present) := by
        unfold buildUnlessPresent
        split
        · exact neverRefuses_pure _
        · exact (neverRefuses_buildStamped _ _).bind fun _ => neverRefuses_pure _
      cases rebuild with
      | true => exact hbuild false
      | false => exact (neverRefuses_engine _).bind hbuild

theorem neverRefuses_runningPrimary (group : ServiceGroup) :
    NeverRefuses site (runningPrimary group) := by
  apply (neverRefuses_engine _).bind
  intro found
  split
  · exact neverRefuses_pure _
  · exact neverRefuses_throw rfl

theorem neverRefuses_bringUp (context : Context) (rebuild : Bool) :
    NeverRefuses site (bringUp context rebuild) := by
  apply (neverRefuses_prepare _ _ _).bind
  intro _
  apply (neverRefuses_engine _).bind
  intro _
  apply (neverRefuses_runningPrimary _).bind
  intro container
  have hready (failure : Readiness.Failure) :
      (failure.toError (context.config.readyTimeoutSecs.toNat * Readiness.second)).isUsage =
        false := by
    cases failure <;> rfl
  apply (neverRefuses_demand hready _).bind
  intro _
  exact (neverRefuses_print _ _).bind fun _ => neverRefuses_pure _

theorem neverRefuses_tearDown (context : Context) (removeVolumes : Bool) :
    NeverRefuses site (tearDown context removeVolumes) := by
  apply (neverRefuses_engine _).bind
  intro _
  exact (neverRefuses_print _ _).bind fun _ => neverRefuses_pure _

theorem neverRefuses_status (context : Context) : NeverRefuses site (status context) := by
  apply (neverRefuses_engine _).bind
  intro found
  split
  all_goals exact (neverRefuses_print _ _).bind fun _ => neverRefuses_pure _

theorem neverRefuses_dumpLogs (context : Context) (directory : String) :
    NeverRefuses site (dumpLogs context directory) := by
  have hone (service : String) :
      NeverRefuses site (dumpServiceLogs context.group directory service) := by
    apply (neverRefuses_engine _).bind
    intro found
    split
    · exact neverRefuses_print _ _
    · apply (neverRefuses_demand (fun _ => rfl) _).bind
      intro _
      exact neverRefuses_print _ _
  have heach (services : List String) :
      NeverRefuses site (dumpEach context.group directory services) := by
    induction services with
    | nil => exact neverRefuses_pure _
    | cons service rest ih => exact (hone service).bind fun _ => ih
  apply (neverRefuses_demand (fun _ => rfl) _).bind
  intro _
  exact (heach _).bind fun _ => neverRefuses_pure _

theorem neverRefuses_forward (context : Context) (command : Command) :
    NeverRefuses site (forward context command) := by
  apply (neverRefuses_runningPrimary _).bind
  intro container
  exact (neverRefuses_engine _).bind fun _ => neverRefuses_pure _

/-! ## Commands in the managed runtime -/

theorem neverRefuses_startService (config : Config) : NeverRefuses site (startService config) := by
  have hclear : NeverRefuses site (clearPluginCache config.pluginCacheDir) := by
    apply (neverRefuses_liftM _).bind
    intro answer
    split
    · exact neverRefuses_pure _
    · split
      · exact neverRefuses_pure _
      · exact neverRefuses_throw rfl
    · exact neverRefuses_throw rfl
  apply (neverRefuses_commandLine _).bind
  intro service
  apply hclear.bind
  intro _
  apply (neverRefuses_demand (fun _ => rfl) _).bind
  intro _
  exact (neverRefuses_runner _).bind fun _ => neverRefuses_pure _

theorem neverRefuses_stopService (config : Config) : NeverRefuses site (stopService config) := by
  have hreport (handles : List Reaper.ProcessHandle) :
      NeverRefuses site (reportSurvivors handles) := by
    induction handles with
    | nil => exact neverRefuses_pure _
    | cons handle rest ih => exact (neverRefuses_print _ _).bind fun _ => ih
  apply (neverRefuses_demand (fun _ => rfl) _).bind
  intro report
  split
  all_goals
    apply (neverRefuses_print _ _).bind
    intro _
    exact (hreport _).bind fun _ => neverRefuses_pure _

theorem neverRefuses_runTests (config : Config) (files : List String) :
    NeverRefuses site (runTests config files) := by
  have heach (line : CommandLine) (files : List String) :
      NeverRefuses site (runEach line files) := by
    induction files with
    | nil => exact neverRefuses_pure _
    | cons file rest ih =>
        apply (neverRefuses_runner _).bind
        intro code
        exact ih.bind fun _ => neverRefuses_pure _
  unfold runTests
  split
  · apply (neverRefuses_commandLine _).bind
    intro line
    exact (neverRefuses_runner _).bind fun _ => neverRefuses_pure _
  · apply (neverRefuses_commandLine _).bind
    intro line
    apply (heach line files).bind
    intro failures
    split
    · exact neverRefuses_pure _
    · exact (neverRefuses_print _ _).bind fun _ => neverRefuses_pure _

theorem neverRefuses_openShell (config : Config) : NeverRefuses site (openShell config) := by
  apply (neverRefuses_demand (fun _ => rfl) _).bind
  intro found
  split
  · exact neverRefuses_throw rfl
  · apply (neverRefuses_commandLine _).bind
    intro line
    exact (neverRefuses_runner _).bind fun _ => neverRefuses_pure _

/-! ## Refusing and forwarding -/

section Handle

variable {context : Context} {command : Command} {s : σ}

theorem handle_of_isRefused (h : command.isRefused context.execution = true) :
    ∃ hint, handle context command =
      throw (.wrongContext command.name context.execution hint) := by
  unfold handle
  cases hexecution : context.execution with
  | host =>
      rw [hexecution] at h
      cases command with
      | start => exact ⟨_, rfl⟩
      | stop forward =>
          cases forward with
          | true => cases h
          | false => exact ⟨_, rfl⟩
      | _ => cases h
  | managed =>
      rw [hexecution] at h
      cases command with
      | up | down | destroy | status | logs => exact ⟨_, rfl⟩
      | _ => cases h

theorem neverRefuses_handle (h : command.isRefused context.execution = false) :
    NeverRefuses site (handle context command) := by
  unfold handle
  cases hexecution : context.execution with
  | host =>
      rw [hexecution] at h
      cases command with
      | up => exact neverRefuses_bringUp _ _
      | down | destroy => exact neverRefuses_tearDown _ _
      | status => exact neverRefuses_status _
      | logs => exact neverRefuses_dumpLogs _ _
      | shell | test => exact neverRefuses_forward _ _
      | start => cases h
      | stop forward =>
          cases forward with
          | true => exact neverRefuses_forward _ _
          | false => cases h
  | managed =>
      rw [hexecution] at h
      cases command with
      | start => exact neverRefuses_startService _
      | stop => exact neverRefuses_stopService _
      | test => exact neverRefuses_runTests _ _
      | shell => exact neverRefuses_openShell _
      | _ => cases h

/-- Forwarding ends with the search for the primary container when none runs. -/
theorem forward_of_missing
    (hmissing : (site.answer (.engine (.runningContainer context.group Service.primaryName))
      s).1 = .ok none) :
    site.result (forward context command) s =
        (.error (.notRunning context.settings.project),
          (site.answer (.engine (.runningContainer context.group Service.primaryName)) s).2) ∧
      (site.moments (forward context command) s).map Procedure.Moment.call =
        [.engine (.runningContainer context.group Service.primaryName)] := by
  have hresult : site.result (runningPrimary context.group) s =
      (.error (.notRunning context.settings.project),
        (site.answer (.engine (.runningContainer context.group Service.primaryName)) s).2) := by
    rw [runningPrimary, Site.result_bind, Site.result_engine, hmissing]
    rfl
  unfold forward
  rw [Site.result_bind, Site.moments_bind, hresult, moments_runningPrimary]
  exact ⟨rfl, rfl⟩

/-- Forwarding opens a terminal for a shell only, and ends as the command in the container does. -/
theorem forward_eq (context : Context) (command : Command) :
    forward context command = (do
      let container ← runningPrimary context.group
      let code ← Flow.engine
        (.exec container (forwardedLine context command) (decide (command = .shell)))
      return .exit code) := by
  cases command <;> rfl

theorem forward_of_running {container : String}
    (hrunning : (site.answer (.engine (.runningContainer context.group Service.primaryName))
      s).1 = .ok (some container)) :
    (site.moments (forward context command) s).map Procedure.Moment.call =
        [.engine (.runningContainer context.group Service.primaryName),
          .engine (.exec container (forwardedLine context command)
            (decide (command = .shell)))] ∧
      ∀ code,
        (site.answer
            (.engine (.exec container (forwardedLine context command)
              (decide (command = .shell))))
            (site.answer (.engine (.runningContainer context.group Service.primaryName))
              s).2).1 = .ok code →
          (site.result (forward context command) s).1 = .ok (.exit code) := by
  obtain ⟨hresult, hcalls⟩ := result_runningPrimary hrunning
  rw [forward_eq, Site.moments_bind, Site.result_bind, List.map_append, hcalls, hresult]
  dsimp only
  constructor
  · rw [calls_engine_pure]
    rfl
  · intro code hcode
    rw [Site.result_bind, Site.result_engine, hcode]
    rfl

end Handle

/-- A command is refused exactly when it belongs to the other context, and then nothing is called
and nothing changes.  A forwarded command fails when no primary container runs, after the search for
it, and otherwise is executed there once and ends with the code of that. -/
theorem refused_without_effect (site : Site σ) (context : Context) (command : Command) (s : σ) :
    ((∃ name place hint, (site.result (handle context command) s).1 =
        .error (.wrongContext name place hint)) ↔
      command.isRefused context.execution = true) ∧
      (command.isRefused context.execution = true →
        site.moments (handle context command) s = [] ∧
          (site.result (handle context command) s).2 = s) ∧
      (context.execution = .host → command.isForwarded = true →
        ((site.answer (.engine (.runningContainer context.group Service.primaryName)) s).1 =
            .ok none →
          site.result (handle context command) s =
              (.error (.notRunning context.settings.project),
                (site.answer (.engine (.runningContainer context.group Service.primaryName))
                  s).2) ∧
            (site.moments (handle context command) s).map Procedure.Moment.call =
              [.engine (.runningContainer context.group Service.primaryName)]) ∧
          ∀ container,
            (site.answer (.engine (.runningContainer context.group Service.primaryName)) s).1 =
                .ok (some container) →
              (site.moments (handle context command) s).map Procedure.Moment.call =
                  [.engine (.runningContainer context.group Service.primaryName),
                    .engine (.exec container (forwardedLine context command)
                      (decide (command = .shell)))] ∧
                ∀ code,
                  (site.answer
                      (.engine (.exec container (forwardedLine context command)
                        (decide (command = .shell))))
                      (site.answer
                        (.engine (.runningContainer context.group Service.primaryName))
                          s).2).1 = .ok code →
                    (site.result (handle context command) s).1 = .ok (.exit code)) := by
  constructor
  · constructor
    · rintro ⟨name, place, hint, hresult⟩
      cases hrefused : command.isRefused context.execution with
      | true => rfl
      | false => cases neverRefuses_handle hrefused s _ hresult
    · intro hrefused
      obtain ⟨hint, hhandle⟩ := handle_of_isRefused hrefused
      rw [hhandle]
      exact ⟨_, _, hint, rfl⟩
  constructor
  · intro hrefused
    obtain ⟨hint, hhandle⟩ := handle_of_isRefused hrefused
    rw [hhandle]
    exact ⟨rfl, rfl⟩
  · intro hhost hforwarded
    rw [handle_of_isForwarded hhost hforwarded]
    constructor
    · exact forward_of_missing
    · intro container hrunning
      exact forward_of_running hrunning

/-- Others among which the primary container may run, and what is executed in it ends with three. -/
def holding (container : Option String) : Procedure.Answerer Call Call.Answer Unit :=
  Site.engineAlone fun
    | .runningContainer _ _ => .ok container
    | .exec _ _ _ => .ok 3
    | _ => .error (.missingContainerId "")

/-- On a host, stopping is refused without a call, and a shell is refused for want of a container or
ends with the code of the shell in it. -/
theorem stop_refused_shell_forwarded :
    (Site.beside (holding none)).moments (handle publishedContext (.stop false))
        ((), FileTree.empty []) = [] ∧
      (Site.beside (holding none)).result (handle publishedContext .shell)
          ((), FileTree.empty []) =
        (.error (.notRunning publishedContext.settings.project), (), FileTree.empty []) ∧
      ((Site.beside (holding (some "proxy-1"))).result (handle publishedContext .shell)
          ((), FileTree.empty [])).1 = .ok (.exit 3) := by
  obtain ⟨-, hrefused, -⟩ := refused_without_effect (Site.beside (holding none)) publishedContext
    (.stop false) ((), FileTree.empty [])
  obtain ⟨-, -, hmissing⟩ := refused_without_effect (Site.beside (holding none)) publishedContext
    .shell ((), FileTree.empty [])
  obtain ⟨-, -, hrunning⟩ := refused_without_effect (Site.beside (holding (some "proxy-1")))
    publishedContext .shell ((), FileTree.empty [])
  refine ⟨(hrefused rfl).1, ((hmissing rfl rfl).1 rfl).1, ?_⟩
  exact ((hrunning rfl rfl).2 "proxy-1" rfl).2 3 rfl

end StackControl.Lifecycle
