import StackControl.Rehearsal.Stage

/-!
# The command line

The command line carries a command out as a rehearsal.  The host it works on takes its variables,
its configuration file and the mark of a container from the real one, and the container engine, the
listing tool and the package manager succeed there without doing anything.  What would have been
launched is shown, then what the run printed, and the exit status is that of the run.
-/

namespace StackControl

open Rehearsal (Host Item Program Stage Visit)

/-- The variables that a run can look at, except the one that says where programs are. -/
def knownVariables : List String :=
  StackKey.all.map StackKey.variableName ++
    Config.fields.map (fun field => "STACKCTL_" ++ field.1.toUpper) ++
    ["HOME", "STACKCTL_CONFIG_PATH", "XDG_CONFIG_DIRS", "XDG_CONFIG_HOME"]

/-- The known variables that are set. -/
def readVariables : IO (List (String × Bytes)) :=
  knownVariables.filterMapM fun name => do
    return (← IO.getEnv name).map fun value => (name, Utf8.encode value)

/-- The content of a file that can be read. -/
def readContent? (path : String) : IO (Option Bytes) := do
  try
    return some (← IO.FS.readBinFile path).toList
  catch _ =>
    return none

/-- The files that a run may look at before it carries out its command. -/
def filesLookedAt (environment : List (String × Bytes)) (arguments : List Bytes) : List Path :=
  let flags := (Arguments.split arguments).configuration.drop 1
  let named := match Configuration.Flags.parse flags with
    | .ok given => given.path.toList.map Utf8.encode
    | .error _ => []
  Utf8.encode ExecutionContext.containerMarker ::
    (named ++ Configuration.places (environment.lookup ·))

/-- The files among these that can be read, with their paths. -/
def readFiles (paths : List Path) : IO (List (Path × Item)) :=
  paths.filterMapM fun path => do
    return (← readContent? (Utf8.decodeLossy path)).map fun content => (path, .file content)

/-- The programs of the rehearsed host, all of which succeed. -/
def rehearsedPrograms : List Program :=
  [({} : Config).engine, "ps", Reaper.packageManager].map fun name => { name := name }

/-- More refused checks than a rehearsal ever makes. -/
def rehearsalPatience : Nat := 1000000

/-- The line that shows a launch. -/
def launchLine (visit : Visit) : String :=
  "+ " ++ " ".intercalate (visit.program :: visit.arguments)

end StackControl

open StackControl Rehearsal in
/-- Rehearses a command line. -/
def main (words : List String) : IO UInt32 := do
  let arguments := ("stackctl" :: words).map Utf8.encode
  let environment ← readVariables
  let files ← readFiles (filesLookedAt environment arguments)
  let host := Host.start rehearsedPrograms environment ⟨[], files⟩
  let (status, stage) := Stage.run rehearsalPatience arguments { host := host }
  let stdout ← IO.getStdout
  let stderr ← IO.getStderr
  for visit in stage.host.visits.reverse do
    stdout.putStrLn (launchLine visit)
  stdout.putStr stage.host.stdout
  stderr.putStr stage.host.stderr
  return UInt32.ofNat status
