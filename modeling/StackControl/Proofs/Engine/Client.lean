import StackControl.Engine.Client
import StackControl.Proofs.Procedure.Realisation

/-!
# The launches of an engine client

What a client launches for a request depends on the request alone, whatever the engine answers.
Requests about a group come to compose commands on that group, a build to one build, and everything
else to plain commands that are neither.
-/

namespace StackControl

/-- A call that launches nothing but what is allowed. -/
def Machine.Launches (allowed : Launch → Prop) : Machine.Call → Prop
  | .launch launch _ | .spawn launch => allowed launch
  | _ => True

namespace Engine

open Machine (Launches)

variable {allowed : Launch → Prop} {launch : Launch}

theorem only_capture (h : allowed launch) : (capture launch).run.Only (Launches allowed) := by
  have hlaunch : (Machine.launch launch .captured).Only (Launches allowed) :=
    Procedure.only_call.mpr h
  apply Procedure.Only.bind_run (hlaunch.map _)
  intro answer
  cases answer with
  | error => trivial
  | ok finished =>
      dsimp only
      split
      · trivial
      · trivial

theorem only_stream {manner : Manner} (h : allowed launch) :
    (stream launch manner).run.Only (Launches allowed) := by
  have hlaunch : (Machine.launch launch manner).Only (Launches allowed) :=
    Procedure.only_call.mpr h
  apply Procedure.Only.bind_run (hlaunch.map _)
  intro answer
  cases answer with
  | error => trivial
  | ok => trivial

theorem only_streamChecked (h : allowed launch) :
    (streamChecked launch).run.Only (Launches allowed) := by
  apply Procedure.Only.bind_run (only_stream h)
  intro code
  split
  · trivial
  · trivial

namespace Client

variable {client : Client} {group : ServiceGroup} {service : String}

/-- A compose command on a group whose own arguments name no project and no definition. -/
def IsCompose (client : Client) (group : ServiceGroup) (launch : Launch) : Prop :=
  ∃ arguments, launch = client.compose group arguments ∧ "-p" ∉ arguments ∧ "-f" ∉ arguments

/-- A plain command of a kind other than the two. -/
def IsAside (client : Client) (launch : Launch) : Prop :=
  ∃ kind arguments, launch = client.command (kind :: arguments) ∧
    kind ≠ "compose" ∧ kind ≠ "build"

/-- What a request may launch. -/
def LaunchOf (client : Client) : Request → Launch → Prop
  | .imageExists _ | .pull _ | .exportPath _ _ | .exec _ _ _ => client.IsAside
  | .build build => fun launch => launch = client.command (buildArguments build)
  | .up group | .down group _ | .runningContainer group _ | .logs group _ =>
    client.IsCompose group

/-- A name that compose does not take for an option of its own. -/
def IsServiceName (service : String) : Prop :=
  service ≠ "-p" ∧ service ≠ "-f"

instance : Decidable (IsServiceName service) :=
  inferInstanceAs (Decidable (_ ∧ _))

/-- The service a request is about, if any, has a proper name. -/
def NamesService : Request → Prop
  | .runningContainer _ service | .logs _ service => IsServiceName service
  | _ => True

theorem isCompose_about (hservice : IsServiceName service) (arguments : List String)
    (hproject : "-p" ∉ arguments) (hfile : "-f" ∉ arguments) :
    client.IsCompose group (client.compose group (arguments ++ [service])) := by
  refine ⟨_, rfl, ?_, ?_⟩
  · intro h
    rcases List.mem_append.mp h with h | h
    · exact hproject h
    · exact hservice.1 (List.mem_singleton.mp h).symm
  · intro h
    rcases List.mem_append.mp h with h | h
    · exact hfile h
    · exact hservice.2 (List.mem_singleton.mp h).symm

theorem only_runningContainer (hservice : IsServiceName service) :
    (client.runningContainer group service).run.Only (Launches (client.IsCompose group)) := by
  have hlist : client.IsCompose group
      (client.compose group ["ps", "--status", "running", "-q", service]) :=
    isCompose_about hservice ["ps", "--status", "running", "-q"] (by decide) (by decide)
  apply Procedure.Only.bind_run (only_capture hlist)
  intro listed
  trivial

theorem only_logs (hservice : IsServiceName service) :
    (client.logs group service).run.Only (Launches (client.IsCompose group)) := by
  have hlist : client.IsCompose group (client.compose group ["ps", "-a", "-q", service]) :=
    isCompose_about hservice ["ps", "-a", "-q"] (by decide) (by decide)
  have hlogs : client.IsCompose group
      (client.compose group ["logs", "--no-color", service]) :=
    isCompose_about hservice ["logs", "--no-color"] (by decide) (by decide)
  have hread : (do
      let output ← capture (client.compose group ["logs", "--no-color", service])
      return some (Utf8.decodeLossy output.stdout ++ Utf8.decodeLossy output.stderr) :
        Attempt (Option String)).run.Only (Launches (client.IsCompose group)) :=
    (only_capture hlogs).bind_run fun _ => trivial
  apply Procedure.Only.bind_run (only_runningContainer hservice)
  intro running
  cases running with
  | some container => exact hread
  | none =>
      apply Procedure.Only.bind_run (only_capture hlist)
      intro listed
      dsimp only
      split
      · trivial
      · exact hread

theorem only_exportPath (image path : String) :
    (client.exportPath image path).run.Only (Launches client.IsAside) := by
  have haside (kind : String) (arguments : List String) (hcompose : kind ≠ "compose")
      (hbuild : kind ≠ "build") :
      (capture (client.command (kind :: arguments))).run.Only (Launches client.IsAside) :=
    only_capture ⟨kind, arguments, rfl, hcompose, hbuild⟩
  apply Procedure.Only.bind_run (haside "create" _ (by decide) (by decide))
  intro created
  dsimp only
  generalize Text.trimmed (Utf8.decodeLossy created.stdout) = container
  split
  · trivial
  · have hcopy := haside "cp" [container ++ ":" ++ path, "-"] (by decide) (by decide)
    have hremove := haside "rm" ["-f", container] (by decide) (by decide)
    apply Procedure.Only.bind_run (hcopy.map _)
    intro copied
    apply Procedure.Only.bind_run (hremove.map _)
    intro removed
    cases copied with
    | error => trivial
    | ok archive =>
        cases removed with
        | error => trivial
        | ok => trivial

theorem only_perform (client : Client) (request : Request) (hservice : NamesService request) :
    (client.perform request).run.Only (Launches (client.LaunchOf request)) := by
  cases request with
  | imageExists image =>
      have hlaunch : client.IsAside (client.command ["image", "inspect", image]) :=
        ⟨_, _, rfl, by decide, by decide⟩
      exact (only_stream hlaunch).bind_run fun _ => trivial
  | pull image => exact only_streamChecked ⟨_, _, rfl, by decide, by decide⟩
  | build build => exact only_streamChecked rfl
  | exportPath image path => exact only_exportPath image path
  | up group => exact only_streamChecked ⟨_, rfl, by decide, by decide⟩
  | down group removeVolumes =>
      cases removeVolumes with
      | true => exact only_streamChecked ⟨_, rfl, by decide, by decide⟩
      | false => exact only_streamChecked ⟨_, rfl, by decide, by decide⟩
  | runningContainer group service => exact only_runningContainer hservice
  | exec container command interactive =>
      exact only_stream ⟨"exec", _, rfl, by decide, by decide⟩
  | logs group service => exact only_logs hservice

end Client

end Engine

end StackControl
