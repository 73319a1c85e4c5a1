import StackControl.Lifecycle.Dispatch
import StackControl.Machine.Files
import StackControl.Rehearsal.Scenery

/-!
# Rehearsed collaborators

A world stands in for everything that lifecycle commands call: an engine with an image store and
running containers, a runner with prepared exit codes, a provisioner, and a table of processes behind
a real reaper.  It logs every call as an event, and any call can be made to fail.
-/

namespace StackControl.Rehearsal

open Lifecycle (Call)

/-- An event of a world. -/
inductive Event
  /-- What was called, and with what. -/
  | call (words : List String)
  /-- What a build saw in the template. -/
  | template (content : Bytes)

/-- The state of a world. -/
structure World where
  tree : FileTree
  images : List String := []
  /-- The running container of each service. -/
  running : List (String × String) := []
  logs : List (String × String) := []
  /-- The archive that every export answers with. -/
  archive : Bytes := []
  /-- Whether starting a group starts the primary container. -/
  upStarts : Bool := true
  /-- What a build does to the files. -/
  onBuild : SceneChange := ⟨[], []⟩
  /-- The file that builds are watched to see. -/
  template : String := ""
  execAnswers : List (Except Engine.Error Int) := []
  execDefault : Int := 0
  localAnswers : List (Except Runner.Error Int) := []
  localDefault : Int := 0
  processes : List Reaper.ProcessHandle := []
  /-- The processes that do not go away when they are signalled. -/
  survive : List UInt32 := []
  toolMissing : Bool := false
  installUseless : Bool := false
  /-- Whether the listing tool was installed during the present command. -/
  toolInstalled : Bool := false
  failures : List (String × Lifecycle.Error) := []
  time : Nat := 0
  stdout : String := ""
  stderr : String := ""
  stdoutBroken : Bool := false
  stderrBroken : Bool := false
  /-- The events so far, the last one first. -/
  events : List Event := []

namespace World

/-- Logs an event. -/
def log (event : Event) (w : World) : World :=
  { w with events := event :: w.events }

/-- The engine error that a kind of call is made to fail with. -/
def engineFailure? (w : World) (name : String) : Option Engine.Error :=
  match w.failures.lookup name with
  | some (.engine error) => some error
  | _ => none

/-- The provisioning error that a kind of call is made to fail with. -/
def provisionFailure? (w : World) (name : String) : Option Provision.Error :=
  match w.failures.lookup name with
  | some (.provision error) => some error
  | some (.runner error) => some (.runner error)
  | _ => none

/-- The reaping error that a kind of call is made to fail with. -/
def reaperFailure? (w : World) (name : String) : Option Reaper.Error :=
  match w.failures.lookup name with
  | some (.reaper error) => some error
  | _ => none

/-- The tool error that a kind of call is made to fail with. -/
def toolFailure? (w : World) (name : String) : Option Reaper.ToolError :=
  match w.failures.lookup name with
  | some (.reaper (.tool error)) => some error
  | _ => none

/-- Adds an image to the store. -/
def addImage (image : String) (w : World) : World :=
  if w.images.contains image then w else { w with images := w.images ++ [image] }

/-- Logs a call and lets it fail, or answers it and changes the world. -/
def answer {ε α : Type}
    (failure : World → Option ε) (words : List String) (value : World → α) (effect : World → World)
    (w : World) : Except ε α × World :=
  let w := w.log (.call words)
  match failure w with
  | some error => (.error error, w)
  | none => (.ok (value w), effect w)

/-- The variables of a build or a group as events show them. -/
def settingWords (pairs : List (String × String)) : List String :=
  pairs.map fun (name, value) => name ++ "=" ++ value

/-- Builds an image: the template is looked at, the files are changed, and the tag is added. -/
def build (b : Engine.Build) (w : World) : Except Engine.Error Unit × World :=
  let w := w.log (.call (["build", b.tag, b.context] ++ settingWords b.buildArguments))
  let w :=
    match w.tree.read (Utf8.encode w.template) with
    | .ok content =>
      w.log (.template content)
    | .error _ => w
  let w := { w with tree := w.onBuild.apply w.tree }
  match w.engineFailure? "build" with
  | some error => (.error error, w)
  | none => (.ok (), w.addImage b.tag)

/-- Takes the next prepared answer, or the usual one. -/
def takeNext {ε : Type} (usual : Int) : List (Except ε Int) → Except ε Int × List (Except ε Int)
  | [] => (.ok usual, [])
  | first :: rest => (first, rest)

/-- The failure of one call by the first of its names that is made to fail. -/
def engineFailureOf (names : List String) (w : World) : Option Engine.Error :=
  names.findSome? w.engineFailure?

/-- Answers a request to the engine. -/
def engine : (request : Engine.Request) → World → Except Engine.Error request.Result × World
  | .imageExists image, w =>
    answer (engineFailureOf ["image_exists"]) ["image_exists", image] (·.images.contains image) id w
  | .pull image, w =>
    answer (engineFailureOf ["pull"]) ["pull", image] (fun _ => ()) (addImage image) w
  | .build b, w => build b w
  | .exportPath image path, w =>
    answer (engineFailureOf ["export"]) ["export", image, path] (·.archive) id w
  | .up group, w =>
    answer (engineFailureOf ["up"])
      (["up", group.project] ++ group.composeFiles ++ settingWords group.environment)
      (fun _ => ())
      (fun w =>
        if w.upStarts && (w.running.lookup Service.primaryName).isNone then
          { w with running := w.running ++ [(Service.primaryName, "proxy-1")] }
        else w) w
  | .down group removeVolumes, w =>
    answer (engineFailureOf ["down"])
      (["down", group.project] ++ group.composeFiles ++
        (if removeVolumes then ["--volumes"] else []))
      (fun _ => ()) (fun w => { w with running := [] }) w
  | .runningContainer group service, w =>
    answer (engineFailureOf ["running"]) ["running", group.project, service]
      (·.running.lookup service) id w
  | .exec container command interactive, w =>
    let w := w.log (.call ((if interactive then "exec -it" else "exec") :: container :: command))
    let (result, rest) := takeNext w.execDefault w.execAnswers
    (result, { w with execAnswers := rest })
  | .logs group service, w =>
    answer (engineFailureOf ["logs", "logs " ++ service]) ["logs", group.project, service]
      (·.logs.lookup service) id w

/-- Answers a request to run a command. -/
def runner (request : Runner.Request) (w : World) : Except Runner.Error Int × World :=
  let name := match request with
    | .run _ => "run"
    | .supervise _ => "supervise"
  let w := w.log (.call (name :: request.line.program :: request.line.arguments))
  let (result, rest) := takeNext w.localDefault w.localAnswers
  (result, { w with localAnswers := rest })

/-- Answers a provisioning request. -/
def provision (request : Provision.Request) (w : World) : Except Provision.Error Unit × World :=
  let (name, count) := match request with
    | .blocking count => ("provision", count)
    | .detached count => ("provision batch", count)
  answer (·.provisionFailure? name) [name, toString count.toNat] (fun _ => ()) id w

/-- Answers a call of the reaper. -/
def reaper : (call : Reaper.Call) → World → call.Answer × World
  | .locate binary, w =>
    let w := w.log (.call ["locate", binary])
    (!w.toolMissing || w.toolInstalled, w)
  | .install package, w =>
    answer (·.toolFailure? "install") ["install", package] (fun _ => ())
      (fun w => if w.installUseless then w else { w with toolInstalled := true }) w
  | .list patterns, w =>
    answer (·.reaperFailure? "find") ("find" :: patterns)
      (·.processes.filter (·.matchesAny patterns)) id w
  | .terminate handle, w =>
    let pid := toString handle.pid.toNat
    answer (·.reaperFailure? ("terminate " ++ pid)) ["terminate", pid] (fun _ => ())
      (fun w =>
        if w.survive.contains handle.pid then w
        else { w with processes := w.processes.filter (·.pid != handle.pid) }) w

/-- Answers a reaping action with a tool gate of its own. -/
def reap {α : Type} (action : Reaper.Gated α) (w : World) : Except Reaper.Error α × World :=
  let ((result, _), w) := (action.run.run Reaper.ToolGate.processLister).run reaper w
  (result, w)

/-- Answers a request to work on files. -/
def files (request : Machine.FileRequest) (w : World) : request.Answer × World :=
  let (answer, tree) := request.perform w.tree
  (answer, { w with tree := tree })

/-- Answers a request to the clock; a pause takes exactly its time. -/
def clock : (request : Machine.ClockRequest) → World → request.Answer × World
  | .now, w => (w.time, w)
  | .sleep pause, w => ((), { w with time := w.time + pause })

/-- Writes to a stream, unless it is broken. -/
def write (stream : Machine.OutputStream) (text : String) (w : World) :
    Except Errno Unit × World :=
  match stream with
  | .stdout =>
    if w.stdoutBroken then (.error .brokenPipe, w)
    else (.ok (), { w with stdout := w.stdout ++ text })
  | .stderr =>
    if w.stderrBroken then (.error .brokenPipe, w)
    else (.ok (), { w with stderr := w.stderr ++ text })

/-- Answers a call of a lifecycle command. -/
def perform : (call : Call) → World → call.Answer × World
  | .engine request, w => w.engine request
  | .runner request, w => w.runner request
  | .provision request, w => w.provision request
  | .processes (.find patterns), w => w.reap (Reaper.findMatching patterns)
  | .processes (.kill patterns), w => w.reap (Reaper.killMatching patterns)
  | .files request, w => w.files request
  | .clock request, w => w.clock request
  | .print stream line, w => w.write stream (line ++ "\n")

end World

end StackControl.Rehearsal
