/-!
# Tool configuration

The settings of the tool itself: logging, the container engine, the files it works on and the
commands it runs inside the managed runtime.  Every field has a default.
-/

namespace StackControl

/-- The forms of log output. -/
inductive LogFormat
  | json
  | compact
deriving DecidableEq, Repr

namespace LogFormat

/-- The word for a format. -/
def name : LogFormat → String
  | .json => "json"
  | .compact => "compact"

/-- The format with exactly this name. -/
def ofName? (s : String) : Option LogFormat :=
  [.json, .compact].find? (·.name == s)

/-- Every format has a name of its own. -/
theorem ofName?_name (f : LogFormat) : ofName? f.name = some f := by
  cases f <;> decide

/-- The format that a word on the command line names; ASCII letters match in either case. -/
def parse? (s : String) : Option LogFormat :=
  ofName? (String.ofList (s.toList.map Char.toLower))

end LogFormat

/-- The configuration of one run. -/
structure Config where
  logFilter : String := "info"
  logFormat : LogFormat := .compact
  engine : String := "docker"
  composeDir : String := "docker-compose"
  contractsDir : String := "contracts"
  revisionTemplate : String := "proxy/neon_rpc_api_model/neon_rpc_api_worker.py"
  rpcPort : UInt16 := 9090
  readyTimeoutSecs : UInt64 := 120
  serviceCommand : String := "python3 -m proxy"
  testCommand : String := "python3 -m unittest discover -v -p test_*.py"
  testFileCommand : String := "python3 -m unittest -v"
  shellCommand : String := "/bin/bash"
  provisionCommand : String := "create-test-accounts.sh"
  provisionBatch : UInt32 := 30
  pluginCacheDir : String := "proxy/plugin/__pycache__"
deriving DecidableEq, Repr

namespace Config

/-- What a field holds. -/
inductive Kind
  | text
  /-- A natural number of at most that many bits. -/
  | number (bits : Nat)
  | logFormat
deriving DecidableEq, Repr

/-- The fields by their names, and what they hold. -/
def fields : List (String × Kind) :=
  [ ("log_filter", .text)
  , ("log_format", .logFormat)
  , ("engine", .text)
  , ("compose_dir", .text)
  , ("contracts_dir", .text)
  , ("revision_template", .text)
  , ("rpc_port", .number 16)
  , ("ready_timeout_secs", .number 64)
  , ("service_command", .text)
  , ("test_command", .text)
  , ("test_file_command", .text)
  , ("shell_command", .text)
  , ("provision_command", .text)
  , ("provision_batch", .number 32)
  , ("plugin_cache_dir", .text) ]

end Config

end StackControl
