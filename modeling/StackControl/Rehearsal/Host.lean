import StackControl.Machine.Files
import StackControl.Provision
import StackControl.Rehearsal.Scenery
import StackControl.Settings

/-!
# Rehearsed hosts

A host stands in for the operating system: it has a file tree, an environment, and programs that give
prepared replies.  Programs are found the way an operating system finds them, and every run of one is
noted with what the program could see.
-/

namespace StackControl.Rehearsal

/-- How a prepared run ends. -/
inductive Ending
  | exit (code : Int)
  | signal (number : Nat)
  /-- The program sends a signal to the run that supervises it, and gets it back: it exits with a
  code if it traps the signal. -/
  | raise (number : Nat) (trap : Option Int)

/-- The wait status of an ending. -/
def Ending.status : Ending → WaitStatus
  | exit code => .exited (code % 256).toNat
  | signal number => .killed number
  | raise _ (some code) => .exited (code % 256).toNat
  | raise number none => .killed number

/-- A prepared reply of a program. -/
structure Reply where
  stdout : Bytes := []
  stderr : Bytes := []
  ending : Ending := .exit 0
  /-- Programs that can be found after this run. -/
  provides : List String := []
  /-- A file that is looked at during the run. -/
  snapshot : Option Path := none

/-- A program and its replies, in the order of its runs. -/
structure Program where
  name : String
  replies : List Reply := []
  /-- The reply when there are no more. -/
  usual : Reply := {}
  /-- Whether the program can be found at first. -/
  present : Bool := true

/-- A run of a program, and what the program saw. -/
structure Visit where
  program : String
  arguments : List String
  /-- The variables of the stack settings, when a compose command was run. -/
  settings : Option (List (Option Bytes))
  /-- The variable that marks provisioning. -/
  provisioning : Option Bytes
  /-- The content of the file that was looked at. -/
  snapshot : Option Bytes

/-- The state of a host. -/
structure Host where
  tree : FileTree
  environment : List (String × Bytes)
  programs : List Program
  /-- The runs so far, the last one first. -/
  visits : List Visit := []
  /-- The number of runs of each program. -/
  counts : List (String × Nat) := []
  time : Nat := 0
  stdout : String := ""
  stderr : String := ""

/-- The directory that holds the programs. -/
def programDirectory : Location := [Utf8.encode "rehearsal", Utf8.encode "bin"]

/-- The directory that relative paths start from. -/
def workingDirectory : Location := [Utf8.encode "rehearsal", Utf8.encode "work"]

/-- Puts programs where they can be found. -/
def installPrograms (names : List String) (tree : FileTree) : FileTree :=
  names.foldl
    (fun tree name =>
      let loc := programDirectory ++ [Utf8.encode name]
      match tree.node? loc with
      | some _ => tree
      | none => tree.putFile loc ⟨0o755, []⟩)
    tree

/-- A tree with nothing but the two directories of a host. -/
def bareTree : FileTree :=
  (FileTree.empty workingDirectory).put programDirectory (.directory FileTree.directoryMode)

namespace Host

/-- A host with programs, variables and files. -/
def start (programs : List Program) (environment : List (String × Bytes)) (files : SceneChange) :
    Host where
  tree := files.apply
    (installPrograms ((programs.filter (·.present)).map (·.name)) bareTree)
  environment := environment ++
    [ ("PATH", Location.toPath programDirectory)
    , ("HOME", Utf8.encode "home")
    , ("XDG_CONFIG_DIRS", Utf8.encode "xdg-dirs") ]
  programs := programs

/-- The value of a variable. -/
def valueOf? (host : Host) (name : String) : Option Bytes :=
  host.environment.lookup name

/-- The process identifier of every run on a host. -/
def ownPid : Nat := 3000000019

/-- The length from which on a single argument is refused. -/
def argumentLimit : Nat := 131072

/-- Whether an argument is too long to be passed to a program. -/
def tooLong (launch : Launch) : Bool :=
  (launch.program :: launch.arguments).any fun s => s.utf8ByteSize + 1 > argumentLimit

/-- The program that an executable file of the host is. -/
def executable? (host : Host) (path : Path) : Except Errno String :=
  match host.tree.stat path with
  | .error (.os e) => .error e
  | .error _ => .error .notFound
  | .ok (_, .directory _) => .error .accessDenied
  | .ok (_, .link _) => .error .tooManyLinks
  | .ok (loc, .file i) =>
    match host.tree.bodies[i]? with
    | some body =>
      if !FileTree.searchable body.mode then .error .accessDenied
      else if loc.dropLast == programDirectory then
        .ok (Utf8.decodeLossy (loc.getLast?.getD []))
      else .error .notExecutable
    | none => .error .notFound

/-- Searches directories for a program.  A file that may not be executed is passed over, but makes
a search that finds nothing else end with an access error. -/
def search (host : Host) (name : Name) : Bool → List Path → Except Errno String
  | denied, [] => .error (if denied then .accessDenied else .notFound)
  | denied, directory :: rest =>
    match host.executable? (Path.join directory name) with
    | .ok program => .ok program
    | .error e =>
      if e = .accessDenied then search host name true rest
      else if e = .notFound || e = .notDirectory then search host name denied rest
      else .error e

/-- The program that a launch starts. -/
def resolve (host : Host) (launch : Launch) : Except LaunchFault String :=
  let name := Utf8.encode launch.program
  if launch.hasNul then .error .nulByte
  else
    let found :=
      if name.isEmpty then .error .notFound
      else if tooLong launch then .error .tooManyArguments
      else if name.contains Path.separator then host.executable? name
      else if name.length > FileTree.longestName then .error .nameTooLong
      else
        host.search name false
          (Text.splitAt (· == byteOf ':') ((host.valueOf? "PATH").getD []))
    match found with
    | .ok program => .ok program
    | .error e => .error (.os e)

/-- The reply of the next run of a program. -/
def replyOf (host : Host) (name : String) : Reply :=
  match host.programs.find? (·.name == name) with
  | some program =>
    (program.replies[(host.counts.lookup name).getD 0]?).getD program.usual
  | none => {}

/-- What a program sees when it runs. -/
def visitOf (host : Host) (name : String) (launch : Launch) (reply : Reply) : Visit where
  program := name
  arguments := launch.arguments
  settings :=
    if launch.arguments.head? == some "compose" then
      some (StackKey.all.map fun key =>
        launch.visible (host.valueOf? key.variableName) key.variableName)
    else none
  provisioning :=
    launch.visible (host.valueOf? Provision.marker.1) Provision.marker.1
  snapshot := reply.snapshot.map fun path =>
    match host.tree.read path with
    | .ok content => content
    | .error _ => []

/-- The text in a process listing that stands for the run itself. -/
def selfWord : Bytes := Utf8.encode "\x7bSELF\x7d"

/-- What a program writes to standard output. -/
def stdoutOf (name : String) (reply : Reply) : Bytes :=
  if name == "ps" then
    Text.replaceAll selfWord (Utf8.encode (toString ownPid)) reply.stdout
  else reply.stdout

/-- Runs a program. -/
def execute (launch : Launch) (host : Host) : Except LaunchFault Finished × Host :=
  match host.resolve launch with
  | .error fault => (.error fault, host)
  | .ok name =>
    let reply := host.replyOf name
    let count := (host.counts.lookup name).getD 0
    (.ok ⟨reply.ending.status, stdoutOf name reply, reply.stderr⟩,
      { host with
        visits := host.visitOf name launch reply :: host.visits
        counts := FileTree.upsert name (count + 1) host.counts
        tree := installPrograms reply.provides host.tree })

/-- Answers a call to the operating system. -/
def perform : (call : Machine.Call) → Host → call.Answer × Host
  | .launch launch _, host => host.execute launch
  | .spawn launch, host =>
    match host.execute launch with
    | (.ok _, host) => (.ok (), host)
    | (.error fault, host) => (.error fault, host)
  | .terminate _, host => (.error .noProcess, host)
  | .ownPid, host => (ownPid, host)
  | .searchPath, host => (host.valueOf? "PATH", host)
  | .isFile path, host => (host.tree.isFile path, host)
  | .files request, host =>
    let (answer, tree) := request.perform host.tree
    (answer, { host with tree := tree })
  | .clock .now, host => (host.time, host)
  | .clock (.sleep pause), host => ((), { host with time := host.time + pause })
  | .print .stdout line, host => (.ok (), { host with stdout := host.stdout ++ line ++ "\n" })
  | .print .stderr line, host => (.ok (), { host with stderr := host.stderr ++ line ++ "\n" })

/-- Carries out an activity on a host. -/
def carryOut {α : Type} (activity : Machine.Activity α) (host : Host) : α × Host :=
  activity.run (fun call host => host.perform call) host

end Host

end StackControl.Rehearsal
