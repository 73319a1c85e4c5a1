import StackControl.Lifecycle.Dispatch
import StackControl.Proofs.Arguments.Requests
import StackControl.Proofs.Lifecycle.Site

/-!
# Forwarded commands

A forwarded command is typed again inside the container: its name, and the files it names as they
are.  Nothing marks them as files there, so the same command is read again exactly when none of them
has the look of an option.  A file that has it can be named on the host, but only after the escape,
which is not repeated.
-/

namespace StackControl.Lifecycle

open Arguments (Request commandGrammar commandOf isPlain parse)
open Procedure (Moment)

variable {σ : Type} {site : Site σ} {s : σ} {context : Context} {command : Command}
  {container : String}

namespace Command

/-- Whether a command is forwarded from the host. -/
def isForwarded : Command → Bool
  | shell | test _ | stop true => true
  | _ => false

/-- The command that is meant inside the container. -/
def managed : Command → Command
  | stop _ => stop false
  | command => command

/-- What is typed inside the container, from the name of the command on. -/
def forwardedPart (command : Command) : List String :=
  command.name :: command.forwardedArguments

end Command

/-! ## What is executed in the container -/

theorem handle_of_isForwarded (hhost : context.execution = .host)
    (hforwarded : command.isForwarded = true) :
    handle context command = forward context command := by
  rw [handle, hhost]
  cases command with
  | shell | test => rfl
  | stop forward =>
      cases forward with
      | true => rfl
      | false => cases hforwarded
  | _ => cases hforwarded

theorem calls_engine_pure {α : Type} {request : Engine.Request}
    (f : request.Result → α) :
    (site.moments (Flow.engine request >>= fun a => pure (f a)) s).map Moment.call =
      [.engine request] := by
  rw [Site.moments_bind, List.map_append, Site.moments_engine]
  split <;> rfl

/-- A running primary container is found by asking for it. -/
theorem result_runningPrimary {group : ServiceGroup}
    (hrunning : (site.answer (.engine (.runningContainer group Service.primaryName)) s).1 =
      .ok (some container)) :
    site.result (runningPrimary group) s =
        (.ok container, (site.answer (.engine (.runningContainer group Service.primaryName)) s).2) ∧
      (site.moments (runningPrimary group) s).map Moment.call =
        [.engine (.runningContainer group Service.primaryName)] := by
  rw [runningPrimary, Site.result_bind, Site.moments_bind, Site.result_engine, hrunning]
  refine ⟨rfl, ?_⟩
  dsimp only [Except.mapError]
  rw [Site.moments_pure, List.append_nil, Site.moments_engine]
  rfl

/-- In a forwarding the primary container is asked for, and the command is executed there. -/
theorem calls_forward
    (hrunning : (site.answer (.engine (.runningContainer context.group Service.primaryName))
      s).1 = .ok (some container)) :
    (site.moments (forward context command) s).map Moment.call =
      [.engine (.runningContainer context.group Service.primaryName),
        .engine (.exec container
          (toolName :: Arguments.forwardedFlags context.configurationArguments ++
            command.forwardedPart) (command matches .shell))] := by
  obtain ⟨hresult, hcalls⟩ := result_runningPrimary hrunning
  unfold forward
  rw [Site.moments_bind, List.map_append, hcalls, hresult]
  dsimp only
  rw [calls_engine_pure]
  rfl

/-! ## What is read in the container -/

theorem subcommand?_name (h : command.isForwarded = true) :
    Arguments.toolGrammar.subcommand? (Utf8.encode command.name) = some command.name := by
  cases command with
  | shell | test | stop =>
      simp only [Command.name]
      decide +kernel
  | _ => cases h

/-- Plain files are read again as they are. -/
theorem parseFlat_forwardedArguments (h : command.isForwarded = true)
    (hplain : ∀ file ∈ command.forwardedArguments, isPlain file = true) :
    (commandGrammar command.name).parseFlat (command.forwardedArguments.map Utf8.encode) =
      .ok ⟨[], command.forwardedArguments⟩ := by
  cases command with
  | shell | stop => rfl
  | test files =>
      exact Arguments.parseFlat_plain rfl rfl fun file hfile =>
        Arguments.shapeOf_encode_eq_plain_iff.mpr (hplain file hfile)
  | _ => cases h

theorem commandOf_forwardedArguments (h : command.isForwarded = true) :
    commandOf ⟨[], command.forwardedArguments⟩ command.name = command.managed := by
  cases command with
  | shell | test | stop => rfl
  | _ => cases h

/-- The part of the line that is typed inside the container is read as the command that is meant
there, without stack settings. -/
def ReadsBack (program : Bytes) (command : Command) : Prop :=
  ∃ request, parse (program :: command.forwardedPart.map Utf8.encode) = .ok request ∧
    request.command = command.managed ∧ ∀ key, request.settings.value key = none

theorem readsBack_of_isPlain {program : Bytes} (h : command.isForwarded = true)
    (hplain : ∀ file ∈ command.forwardedArguments, isPlain file = true) :
    ReadsBack program command := by
  rw [ReadsBack, Command.forwardedPart, List.map_cons,
    Arguments.parse_cons (subcommand?_name h), parseFlat_forwardedArguments h hplain]
  exact ⟨_, rfl, commandOf_forwardedArguments h, fun _ => rfl⟩

/-- The words of a test command are the files it names. -/
theorem words_of_commandOf_eq_test {found : Arguments.Matches} {name : String}
    {files : List String} (h : commandOf found name = .test files) :
    found.words = files := by
  unfold commandOf at h
  split at h
  all_goals cases h
  rfl

/-- Files that are read again as they are have not the look of an option. -/
theorem isPlain_of_readsBack {program : Bytes} (h : command.isForwarded = true)
    (hreads : ReadsBack program command) :
    ∀ file ∈ command.forwardedArguments, isPlain file = true := by
  cases command with
  | test files =>
      obtain ⟨request, hparse, hcommand, -⟩ := hreads
      rw [Command.forwardedPart, List.map_cons, Arguments.parse_cons (subcommand?_name h)] at hparse
      obtain ⟨found, hflat, rfl⟩ := Arguments.exists_of_map_eq_ok hparse
      have hkept := Arguments.kept_parseFlat hflat
      have hwords : found.words = files :=
        words_of_commandOf_eq_test (show commandOf found "test" = .test files from hcommand)
      rw [hwords] at hkept
      intro file hfile
      exact Arguments.shapeOf_encode_eq_plain_iff.mp
        (hkept.plain_of_eq rfl rfl _ (List.mem_map_of_mem hfile))
  | _ => exact fun _ hfile => absurd hfile List.not_mem_nil

/-- A file that a request names without the escape has not the look of an option. -/
theorem isPlain_of_parse {arguments : List Bytes} {request : Request}
    (hparse : parse arguments = .ok request) (hescape : Utf8.encode "--" ∉ arguments) :
    ∀ file ∈ request.command.forwardedArguments, isPlain file = true := by
  obtain ⟨name, tokens, before, after, htokens, hflat, rfl⟩ :=
    Arguments.exists_parseFlat_of_parse hparse
  have hkept := Arguments.kept_parseFlat hflat
  have hplain := hkept.plain rfl fun token htoken hshape =>
    hescape (Arguments.eq_of_shapeOf_eq_escape hshape ▸ htokens.subset htoken)
  dsimp only
  cases hcommand : commandOf after name with
  | test files =>
      rw [words_of_commandOf_eq_test hcommand] at hplain
      intro file hfile
      exact Arguments.shapeOf_encode_eq_plain_iff.mp (hplain _ (List.mem_map_of_mem hfile))
  | _ => exact fun _ hfile => absurd hfile List.not_mem_nil

/-- A forwarded command is executed in the running primary container, and is read there as the
command that is meant exactly when none of its files has the look of an option.  Without the escape
the host accepts no file that has. -/
theorem forwarded_readsBack_iff (site : Site σ) (s : σ) (context : Context)
    (program : Bytes) (arguments : List Bytes) (request : Request) (container : String)
    (hhost : context.execution = .host)
    (hrunning : (site.answer (.engine (.runningContainer context.group Service.primaryName))
      s).1 = .ok (some container))
    (hparse : parse arguments = .ok request) (hforwarded : request.command.isForwarded = true) :
    (site.moments (handle context request.command) s).map Moment.call =
        [.engine (.runningContainer context.group Service.primaryName),
          .engine (.exec container
            (toolName :: Arguments.forwardedFlags context.configurationArguments ++
              request.command.forwardedPart) (request.command matches .shell))] ∧
      (ReadsBack program request.command ↔
        ∀ file ∈ request.command.forwardedArguments, isPlain file = true) ∧
      (Utf8.encode "--" ∉ arguments → ReadsBack program request.command) := by
  constructor
  · rw [handle_of_isForwarded hhost hforwarded]
    exact calls_forward hrunning
  constructor
  · constructor
    · exact isPlain_of_readsBack hforwarded
    · exact readsBack_of_isPlain hforwarded
  · intro hescape
    have hplain := isPlain_of_parse hparse hescape
    exact readsBack_of_isPlain hforwarded hplain

/-- Others among which the engine finds every container that is asked for. -/
def finding (container : String) : Procedure.Answerer Call Call.Answer Unit :=
  Site.engineAlone fun
    | .runningContainer _ _ => .ok (some container)
    | .exec _ _ _ => .ok 0
    | _ => .error (.missingContainerId "")

/-- The default context on a host. -/
def hostContext : Context where
  config := {}
  configurationArguments := [Utf8.encode "stackctl"]
  settings := .resolve .none fun _ => none
  execution := .host
  patience := 0

/-- A test file by its ordinary name is named again in the container. -/
theorem readsBack_test_file : ReadsBack (Utf8.encode "stackctl") (.test ["tests/a.py"]) := by
  have hcommand : (parse (["stackctl", "test", "tests/a.py"].map Utf8.encode)).map
      Request.command = .ok (.test ["tests/a.py"]) :=
    eq_ok_of_toOption (by decide +kernel)
  obtain ⟨request, hparse, hcommand⟩ := Arguments.exists_of_map_eq_ok hcommand
  have hread := forwarded_readsBack_iff (Site.beside (finding "proxy-1"))
    ((), FileTree.empty []) hostContext (Utf8.encode "stackctl")
    (["stackctl", "test", "tests/a.py"].map Utf8.encode) request "proxy-1" rfl rfl hparse
    (by rw [hcommand]; rfl)
  rw [hcommand] at hread
  exact hread.2.2 (by decide +kernel)

/-- A file with a dash in front is accepted on the host after the escape, but in the container its
name is refused as an unknown option. -/
theorem not_readsBack_dashed_file :
    ∃ request, parse (["stackctl", "test", "--", "-x"].map Utf8.encode) = .ok request ∧
      request.command = .test ["-x"] ∧ ¬ReadsBack (Utf8.encode "stackctl") request.command := by
  have hcommand : (parse (["stackctl", "test", "--", "-x"].map Utf8.encode)).map
      Request.command = .ok (.test ["-x"]) :=
    eq_ok_of_toOption (by decide +kernel)
  obtain ⟨request, hparse, hcommand⟩ := Arguments.exists_of_map_eq_ok hcommand
  refine ⟨request, hparse, hcommand, ?_⟩
  rw [hcommand]
  rintro ⟨again, hagain, -⟩
  have hnone : (parse (Utf8.encode "stackctl" ::
      (Command.test ["-x"]).forwardedPart.map Utf8.encode)).toOption.map Request.command =
        none := by
    decide +kernel
  rw [hagain] at hnone
  cases hnone

end StackControl.Lifecycle
