import StackControl.Lifecycle.Realisation
import StackControl.Proofs.Engine.Client
import StackControl.Proofs.Lifecycle.BringUp
import StackControl.Proofs.Lifecycle.ServicePatterns

/-!
# The settings that compose acts on

The resolved settings come to a compose command by several ways: the variables of its environment,
the project, and the definitions it is given.  On the host every command carries the same resolved
values along each of them, and so does every build, whatever the variables were before.
-/

namespace StackControl.Lifecycle

open Engine.Client (IsServiceName NamesService)
open Machine (Launches)
open Procedure (Answerer)

variable {σ : Type} {context : Context} {rebuild : Bool}

/-- A request about the group of the context, or the one build. -/
def IsAbout (context : Context) : Engine.Request → Prop
  | .build build => build = proxyBuild context.settings
  | .up group | .down group _ => group = context.group
  | .runningContainer group service | .logs group service =>
    group = context.group ∧ IsServiceName service
  | _ => True

/-- A call that a command makes on the host. -/
def HostCall (context : Context) : Call → Prop
  | .engine request => IsAbout context request
  | .files _ | .clock _ | .print _ _ => True
  | .runner _ | .provision _ | .processes _ => False

/-! ## The calls of commands on the host -/

theorem only_print_host (stream : Machine.OutputStream) (line : String) :
    (Flow.print stream line).run.Only (HostCall context) :=
  only_demand (Procedure.only_call.mpr trivial)

theorem only_prepare_host :
    (prepare context.config context.settings rebuild).run.Only (HostCall context) := by
  apply (only_prepare _ _ _).mono
  rintro _ ((rfl | rfl) | (rfl | rfl | ⟨archive, rfl⟩) |
    (rfl | rfl | ⟨path, rfl⟩ | ⟨path, content, rfl⟩))
  case inr.inr.inr.inl => rfl
  all_goals trivial

theorem isServiceName_primary : IsServiceName Service.primaryName := by
  decide

theorem isServiceName_of_mem {service : Service} (h : service ∈ Service.all) :
    IsServiceName service.name := by
  have hall : ∀ service ∈ Service.all, IsServiceName service.name := by
    decide
  exact hall service h

theorem only_runningPrimary_host :
    (runningPrimary context.group).run.Only (HostCall context) := by
  apply Procedure.Only.bind_run (only_engine ⟨rfl, isServiceName_primary⟩)
  intro found
  split
  · trivial
  · trivial

theorem only_bringUp : (bringUp context rebuild).run.Only (HostCall context) := by
  have hup : HostCall context (.engine (.up context.group)) := rfl
  apply only_prepare_host.bind_run
  intro _
  apply Procedure.Only.bind_run (only_engine hup)
  intro _
  apply only_runningPrimary_host.bind_run
  intro container
  have hready : (awaitReadiness container context.config.rpcPort
      context.config.readyTimeoutSecs.toNat context.patience).run.Only (HostCall context) := by
    apply (only_awaitReadiness _ _ _ _).mono
    rintro _ (⟨endpoint, rfl⟩ | ⟨request, rfl⟩)
    · trivial
    · trivial
  apply hready.bind_run
  intro _
  exact (only_print_host _ _).bind_run fun _ => trivial

theorem only_tearDown (removeVolumes : Bool) :
    (tearDown context removeVolumes).run.Only (HostCall context) := by
  have hdown : HostCall context (.engine (.down context.group removeVolumes)) := rfl
  apply Procedure.Only.bind_run (only_engine hdown)
  intro _
  exact (only_print_host _ _).bind_run fun _ => trivial

theorem only_status : (status context).run.Only (HostCall context) := by
  apply Procedure.Only.bind_run (only_engine ⟨rfl, isServiceName_primary⟩)
  intro found
  split
  · exact (only_print_host _ _).bind_run fun _ => trivial
  · exact (only_print_host _ _).bind_run fun _ => trivial

theorem only_dumpLogs (directory : String) :
    (dumpLogs context directory).run.Only (HostCall context) := by
  have hone (service : String) (hservice : IsServiceName service) :
      (dumpServiceLogs context.group directory service).run.Only (HostCall context) := by
    apply Procedure.Only.bind_run (only_engine ⟨rfl, hservice⟩)
    intro found
    split
    · exact only_print_host _ _
    · apply Procedure.Only.bind_run (only_demand (only_files trivial))
      intro _
      exact only_print_host _ _
  have heach (services : List String) (hservices : ∀ service ∈ services, IsServiceName service) :
      (dumpEach context.group directory services).run.Only (HostCall context) := by
    induction services with
    | nil => trivial
    | cons service rest ih =>
        apply (hone service (hservices service List.mem_cons_self)).bind_run
        intro _
        exact ih fun other hother => hservices other (List.mem_cons_of_mem _ hother)
  apply Procedure.Only.bind_run (only_demand (only_files trivial))
  intro _
  refine Procedure.Only.bind_run (heach _ ?_) fun _ => trivial
  intro name hname
  obtain ⟨service, hservice, rfl⟩ := List.mem_map.mp hname
  exact isServiceName_of_mem hservice

theorem only_forward (command : Command) :
    (forward context command).run.Only (HostCall context) := by
  apply only_runningPrimary_host.bind_run
  intro container
  exact Procedure.Only.bind_run (only_engine trivial) fun _ => trivial

theorem only_handle_host (h : context.execution = .host) (command : Command) :
    (handle context command).run.Only (HostCall context) := by
  rw [handle, h]
  cases command with
  | up => exact only_bringUp
  | down | destroy => exact only_tearDown _
  | status => exact only_status
  | logs => exact only_dumpLogs _
  | shell | test => exact only_forward _
  | start => trivial
  | stop forward =>
      cases forward with
      | true => exact only_forward _
      | false => trivial

/-! ## The launches of commands on the host -/

/-- What a launch on the host shows of the settings.  A compose command sees each of them in its
environment, and is given the project and the definitions once and for all; a build is given its tag
and its values. -/
structure ShowsSettings (config : Config) (settings : StackSettings)
    (inherited : String → Option Bytes) (launch : Launch) : Prop where
  environment : launch.arguments.head? = some "compose" → ∀ key : StackKey,
    launch.visible (inherited key.variableName) key.variableName =
      some (Utf8.encode (settings.value key))
  definitions : launch.arguments.head? = some "compose" → ∃ rest,
    launch.arguments =
        ["compose", "-p", settings.value .project,
          "-f", Path.joinText config.composeDir "docker-compose-test.yml"] ++
        (if settings.value .revision = "local" then
          ["-f", Path.joinText config.composeDir "docker-compose-local.yml"] else []) ++
        rest ∧
      "-p" ∉ rest ∧ "-f" ∉ rest
  build : launch.arguments.head? = some "build" →
    launch.arguments =
      ["build", "-t",
        settings.value .registryNamespace ++ "/neon-proxy.py:" ++ settings.value .revision,
        "--build-arg", "NEON_EVM_COMMIT=" ++ settings.value .evmCommit,
        "--build-arg", "DOCKERHUB_ORG_NAME=" ++ settings.value .registryNamespace,
        "--build-arg", "PROXY_REVISION=" ++ settings.value .revision, "."]

variable {client : Engine.Client} {config : Config} {settings : StackSettings}
  {inherited : String → Option Bytes} {launch : Launch}

/-- A variable that is set for a launch hides the one that was there before. -/
theorem visible_composeEnvironment (program : String) (arguments : List String)
    (settings : StackSettings) (before : Option Bytes) (key : StackKey) :
    (Launch.mk program arguments settings.composeEnvironment).visible before key.variableName =
      some (Utf8.encode (settings.value key)) := by
  cases key <;> rfl

theorem showsSettings_of_isAside (h : client.IsAside launch) :
    ShowsSettings config settings inherited launch := by
  obtain ⟨kind, arguments, rfl, hcompose, hbuild⟩ := h
  constructor
  · intro hkind
    exact absurd (Option.some.inj hkind) hcompose
  · intro hkind
    exact absurd (Option.some.inj hkind) hcompose
  · intro hkind
    exact absurd (Option.some.inj hkind) hbuild

theorem showsSettings_of_isCompose (h : client.IsCompose (.ofSettings config settings) launch) :
    ShowsSettings config settings inherited launch := by
  obtain ⟨arguments, rfl, hproject, hfile⟩ := h
  constructor
  · intro _ key
    exact visible_composeEnvironment _ _ settings _ key
  · intro _
    refine ⟨arguments, ?_, hproject, hfile⟩
    by_cases hlocal : settings.value .revision = "local"
    · have hisLocal : settings.isLocal = true := beq_iff_eq.mpr hlocal
      simp [Engine.Client.compose, Engine.composeArguments, ServiceGroup.ofSettings,
        ServiceGroup.composeFiles, StackSettings.project, hisLocal, hlocal,
        ServiceGroup.baseFile, ServiceGroup.overrideFile]
    · have hisLocal : settings.isLocal = false := beq_eq_false_iff_ne.mpr hlocal
      simp [Engine.Client.compose, Engine.composeArguments, ServiceGroup.ofSettings,
        ServiceGroup.composeFiles, StackSettings.project, hisLocal, hlocal,
        ServiceGroup.baseFile]
  · intro hkind
    exact absurd (Option.some.inj hkind) (by decide)

theorem showsSettings_of_build :
    ShowsSettings config settings inherited
      (client.command (Engine.buildArguments (proxyBuild settings))) := by
  constructor
  · intro hkind
    exact absurd (Option.some.inj hkind) (by decide)
  · intro hkind
    exact absurd (Option.some.inj hkind) (by decide)
  · intro _
    rfl

theorem showsSettings_of_isAbout {request : Engine.Request} (h : IsAbout context request)
    (hlaunch : client.LaunchOf request launch) :
    ShowsSettings context.config context.settings inherited launch := by
  cases request with
  | imageExists | pull | exportPath | exec => exact showsSettings_of_isAside hlaunch
  | build build =>
      cases h
      cases hlaunch
      exact showsSettings_of_build
  | up | down =>
      cases h
      exact showsSettings_of_isCompose hlaunch
  | runningContainer | logs =>
      cases h.1
      exact showsSettings_of_isCompose hlaunch

theorem namesService_of_isAbout {request : Engine.Request} (h : IsAbout context request) :
    NamesService request := by
  cases request with
  | runningContainer | logs => exact h.2
  | _ => trivial

theorem only_perform_host {call : Call} (h : HostCall context call) (gate : Reaper.ToolGate) :
    ((perform context.config call).run gate).Only
      (Launches (ShowsSettings context.config context.settings inherited)) := by
  cases call with
  | engine request =>
      have hrequest := Engine.Client.only_perform ⟨context.config.engine⟩ request
        (namesService_of_isAbout h)
      refine Procedure.Only.bind (hrequest.mono ?_) fun _ => trivial
      intro call hcall
      cases call with
      | launch | spawn => exact showsSettings_of_isAbout h hcall
      | _ => trivial
  | files | clock | print => exact (Procedure.only_call.mpr trivial).bind fun _ => trivial
  | runner | provision | processes => cases h

/-- On the host, whatever a command is and whatever the engine does, every compose command of a run
acts on the settings that were resolved from the command line and the environment, and so does every
build: the variables, the project, the definitions and the tag all agree with them. -/
theorem compose_acts_on_resolved_settings (os : Answerer Machine.Call Machine.Call.Answer σ)
    (explicit : ExplicitSettings) (inherited : String → Option Bytes) (config : Config)
    (configurationArguments : List Bytes) (patience : Nat) (command : Command) (s : σ) :
    ∀ m ∈ Procedure.moments os
        (handleOnMachine
          { config := config
            configurationArguments := configurationArguments
            settings := .resolve explicit fun name => (inherited name).bind Utf8.decode?
            execution := .host
            patience := patience }
          command) s,
      Launches
        (ShowsSettings config
          (.resolve explicit fun name => (inherited name).bind Utf8.decode?) inherited)
        m.call := by
  intro m hm
  rw [moments_handleOnMachine] at hm
  obtain ⟨m', hm', hm⟩ := List.mem_flatMap.mp hm
  have hcall := (only_handle_host rfl command).mem_moments hm'
  exact (only_perform_host hcall m'.state.2).mem_moments hm

/-- A project that is named on the command line. -/
def namedProject : ExplicitSettings :=
  .set .none .project (some "named")

/-- Variables among which the project is another one, and the revision is a local one. -/
def otherProject (name : String) : Option Bytes :=
  [("COMPOSE_PROJECT_NAME", Utf8.encode "other"), ("REVISION", Utf8.encode "local")].lookup name

/-- The status of a local revision is that of the named project, although another one is set. -/
theorem status_of_named_project :
    ∃ launch manner, ((handleOnMachine
        { config := {}
          configurationArguments := []
          settings := .resolve namedProject fun name => (otherProject name).bind Utf8.decode?
          execution := .host
          patience := 1 } .status).moments (writing "") ()).head?.map Procedure.Moment.call =
        some (.launch launch manner) ∧
      launch.visible (some (Utf8.encode "other")) "COMPOSE_PROJECT_NAME" =
        some (Utf8.encode "named") ∧
      ∃ rest, launch.arguments =
        ["compose", "-p", "named", "-f", "docker-compose/docker-compose-test.yml",
          "-f", "docker-compose/docker-compose-local.yml"] ++ rest := by
  have hshows := compose_acts_on_resolved_settings (writing "") namedProject otherProject {} [] 1
    .status () _ (.head _)
  refine ⟨_, _, rfl, ?_, ?_⟩
  · exact hshows.environment rfl .project
  · obtain ⟨rest, hrest, -⟩ := hshows.definitions rfl
    have hlocal : (StackSettings.resolve namedProject fun name =>
        (otherProject name).bind Utf8.decode?).value .revision = "local" := by
      decide +kernel
    have hbase : Path.joinText ({} : Config).composeDir "docker-compose-test.yml" =
        "docker-compose/docker-compose-test.yml" := by
      decide +kernel
    have hoverride : Path.joinText ({} : Config).composeDir "docker-compose-local.yml" =
        "docker-compose/docker-compose-local.yml" := by
      decide +kernel
    rw [if_pos hlocal, hbase, hoverride] at hrest
    exact ⟨rest, hrest⟩

end StackControl.Lifecycle
