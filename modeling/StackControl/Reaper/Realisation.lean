import StackControl.Machine.Call
import StackControl.Reaper.Pass

/-!
# Reaping on a machine

The calls of the reaper come down to launching the listing tool and the package manager, to a search
of `PATH`, and to signals.
-/

namespace StackControl.Reaper

/-- The directories of a search path; an empty one is the working directory. -/
def searchDirectories (path : Bytes) : List Path :=
  Text.splitAt (· == byteOf ':') path

/-- Whether one of the directories holds a regular file of that name. -/
def locateIn (binary : Bytes) : List Path → Machine.Activity Bool
  | [] => return false
  | directory :: rest => do
    if ← Machine.isFile (Path.join directory binary) then
      return true
    locateIn binary rest

/-- Whether a directory of `PATH` holds the program. -/
def locateTool (binary : String) : Machine.Activity Bool := do
  match ← Machine.searchPath with
  | some path => locateIn (Utf8.encode binary) (searchDirectories path)
  | none => return false

/-- The package manager. -/
def packageManager : String := "apt-get"

/-- Runs the package manager for a package. -/
def runPackageManager (arguments : List String) (package : String) :
    ExceptT ToolError Machine.Activity Unit := do
  let command := " ".intercalate (packageManager :: arguments)
  match ← Machine.launch (.plain packageManager arguments) .unattended with
  | .error fault => throw (.launch command package fault)
  | .ok finished =>
    if finished.status.code != 0 then
      throw (.installFailed command package finished.status.code)

/-- Updates the package lists and installs a package. -/
def installPackage (package : String) : ExceptT ToolError Machine.Activity Unit := do
  runPackageManager ["update"] package
  runPackageManager ["install", "-y", package] package

/-- Lists the processes that some pattern selects. -/
def listMatching (patterns : List String) :
    ExceptT Error Machine.Activity (List ProcessHandle) := do
  match ← Machine.launch (.plain "ps" ["-eo", "pid=,args="]) .captured with
  | .error fault => throw (.listProcesses fault)
  | .ok finished =>
    unless finished.status.isSuccess do
      throw (.listFailed finished.status.code)
    return matching (Utf8.decodeLossy finished.stdout) patterns (← Machine.ownPid)

/-- The largest number that a process can have. -/
def largestPid : Nat := Text.maxUnsigned 31

/-- Sends the termination signal.  A process that is gone counts as terminated. -/
def terminateProcess (handle : ProcessHandle) : ExceptT Error Machine.Activity Unit := do
  if handle.pid.toNat > largestPid then
    throw (.invalidPid handle.pid)
  match ← Machine.terminate handle.pid.toNat with
  | .ok () => return
  | .error e =>
    if e = .noProcess then return
    throw (.terminate handle.pid e)

/-- Carries out a call of the reaper. -/
def perform : (call : Call) → Machine.Activity call.Answer
  | .locate binary => locateTool binary
  | .install package => (installPackage package).run
  | .list patterns => (listMatching patterns).run
  | .terminate handle => (terminateProcess handle).run

end StackControl.Reaper
