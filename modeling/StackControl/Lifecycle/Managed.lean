import StackControl.Config
import StackControl.Lifecycle.Basic

/-!
# Commands in the managed runtime

Inside the primary container a command works on the service itself: it provisions and starts it,
terminates its processes, runs its tests, or opens a shell.
-/

namespace StackControl.Lifecycle

/-- The part of a command line that shows the tool launching the service. -/
def startWrapperPattern : String := "stackctl start"

/-- The patterns that select the service and the tool that launched it. -/
def servicePatterns (config : Config) : List String :=
  [config.serviceCommand, startWrapperPattern]

/-- Takes away a directory; that it is missing is fine. -/
def clearPluginCache (path : String) : Flow Unit := do
  match ← Flow.files (.removeDirectories (Utf8.encode path)) with
  | .ok () => return
  | .error (.os e) =>
    if e = .notFound then return
    throw (.pluginCache path (.os e))
  | .error fault => throw (.pluginCache path fault)

/-- Provisions the test accounts. -/
def provisionAccounts (batch : UInt32) : Flow Provision.Report :=
  Flow.demand .provision
    ((Provision.provision batch).run.realise fun request =>
      Procedure.call (Call.provision request))

/-- Clears the plugin cache, provisions, and runs the service until it ends. -/
def startService (config : Config) : Flow Outcome := do
  let service ← Flow.commandLine config.serviceCommand
  clearPluginCache config.pluginCacheDir
  let _ ← provisionAccounts config.provisionBatch
  return .exit (← Flow.runner (.supervise service))

/-- Reports the processes that were signalled and are still there. -/
def reportSurvivors : List Reaper.ProcessHandle → Flow Unit
  | [] => return
  | handle :: rest => do
    Flow.complain ("pid " ++ toString handle.pid.toNat ++ " is still running: " ++
      handle.commandLine)
    reportSurvivors rest

/-- Terminates the processes of the service.  That none runs is fine. -/
def stopService (config : Config) : Flow Outcome := do
  let report ← Flow.processes (.kill (servicePatterns config))
  if report.isNoop then
    Flow.say "service is not running"
  else
    Flow.say ("sent termination signal to " ++ toString report.matched.length ++ " process(es)")
  reportSurvivors report.survivors
  return .reached .stopped

/-- Runs the tests of each file, in order: the files that failed, with their exit codes. -/
def runEach (perFile : CommandLine) : List String → Flow (List (String × Int))
  | [] => return []
  | file :: rest => do
    let code ← Flow.runner (.run (perFile.append [file]))
    let failures ← runEach perFile rest
    return if code != 0 then (file, code) :: failures else failures

/-- Runs the tests of named files; the first exit code that is not zero is passed on. -/
def runNamedTests (config : Config) (files : List String) : Flow Outcome := do
  let perFile ← Flow.commandLine config.testFileCommand
  match ← runEach perFile files with
  | [] => return .exit 0
  | (file, code) :: others =>
    let names := file :: others.map (·.1)
    Flow.complain (toString names.length ++ " of " ++ toString files.length ++
      " test file(s) failed: " ++ ", ".intercalate names)
    return .exit code

/-- Runs the whole test suite, or the tests of the named files. -/
def runTests (config : Config) (files : List String) : Flow Outcome := do
  if files.isEmpty then
    let tests ← Flow.commandLine config.testCommand
    return .exit (← Flow.runner (.run tests))
  runNamedTests config files

/-- Opens a shell, once it is known that the service runs. -/
def openShell (config : Config) : Flow Outcome := do
  let found ← Flow.processes (.find (servicePatterns config))
  if List.isEmpty found then
    throw .serviceNotRunning
  let shell ← Flow.commandLine config.shellCommand
  return .exit (← Flow.runner (.run shell))

end StackControl.Lifecycle
