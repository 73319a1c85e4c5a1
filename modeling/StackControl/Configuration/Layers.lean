import StackControl.Config
import StackControl.Configuration.Value
import StackControl.Text.Number

/-!
# Configuration from layers

The sources of configuration lie one above the other.  A field takes its value from the topmost
layer that gives it one, and has its default if none does.  A hidden value is never looked at; the
values that count must fit their fields.
-/

namespace StackControl.Configuration

/-- Layers, the topmost one first. -/
abbrev Layers := List Layer

namespace Layers

/-- The value that counts for a field. -/
def value? (layers : Layers) (field : String) : Option Value :=
  layers.findSome? (·.lookup field)

/-- What a field holds, given how to read a value for it. -/
def decode? {α : Type} (layers : Layers) (read? : Value → Option α) (field : String) (default : α) :
    Option α :=
  match layers.value? field with
  | none => some default
  | some v => read? v

/-- Reads the value of a field that holds a text. -/
def text? : Value → Option String
  | .text s => some s
  | _ => none

/-- Reads the value of a field that holds a natural number of at most `max`. -/
def number? (max : Nat) : Value → Option Nat
  | .integer n => if 0 ≤ n ∧ n ≤ max then some n.toNat else none
  | _ => none

/-- Reads the value of a field that holds a log format. -/
def logFormat? (v : Value) : Option LogFormat :=
  (text? v).bind LogFormat.ofName?

/-- The layer that gives every field its value in a configuration. -/
def ofConfig (c : Config) : Layer :=
  [ ("log_filter", .text c.logFilter)
  , ("log_format", .text c.logFormat.name)
  , ("engine", .text c.engine)
  , ("compose_dir", .text c.composeDir)
  , ("contracts_dir", .text c.contractsDir)
  , ("revision_template", .text c.revisionTemplate)
  , ("rpc_port", .integer c.rpcPort.toNat)
  , ("ready_timeout_secs", .integer c.readyTimeoutSecs.toNat)
  , ("service_command", .text c.serviceCommand)
  , ("test_command", .text c.testCommand)
  , ("test_file_command", .text c.testFileCommand)
  , ("shell_command", .text c.shellCommand)
  , ("provision_command", .text c.provisionCommand)
  , ("provision_batch", .integer c.provisionBatch.toNat)
  , ("plugin_cache_dir", .text c.pluginCacheDir) ]

/-- The configuration that layers give, if all values fit. -/
def config? (layers : Layers) : Option Config := do
  let d : Config := {}
  let text := layers.decode? text?
  return {
    logFilter := ← text "log_filter" d.logFilter
    logFormat := ← layers.decode? logFormat? "log_format" d.logFormat
    engine := ← text "engine" d.engine
    composeDir := ← text "compose_dir" d.composeDir
    contractsDir := ← text "contracts_dir" d.contractsDir
    revisionTemplate := ← text "revision_template" d.revisionTemplate
    rpcPort := .ofNat (← layers.decode? (number? (Text.maxUnsigned 16)) "rpc_port" d.rpcPort.toNat)
    readyTimeoutSecs := .ofNat
      (← layers.decode? (number? (Text.maxUnsigned 64)) "ready_timeout_secs" d.readyTimeoutSecs.toNat)
    serviceCommand := ← text "service_command" d.serviceCommand
    testCommand := ← text "test_command" d.testCommand
    testFileCommand := ← text "test_file_command" d.testFileCommand
    shellCommand := ← text "shell_command" d.shellCommand
    provisionCommand := ← text "provision_command" d.provisionCommand
    provisionBatch := .ofNat
      (← layers.decode? (number? (Text.maxUnsigned 32)) "provision_batch" d.provisionBatch.toNat)
    pluginCacheDir := ← text "plugin_cache_dir" d.pluginCacheDir }

/-- A configuration written out as a layer is read back. -/
theorem config?_ofConfig (c : Config) : config? [ofConfig c] = some c := by
  have port : (c.rpcPort.toNat : Int) ≤ 65535 := by
    have := c.rpcPort.toNat_lt
    omega
  have seconds : (c.readyTimeoutSecs.toNat : Int) ≤ 18446744073709551615 := by
    have := c.readyTimeoutSecs.toNat_lt
    omega
  have batch : (c.provisionBatch.toNat : Int) ≤ 4294967295 := by
    have := c.provisionBatch.toNat_lt
    omega
  simp [config?, ofConfig, decode?, value?, List.lookup_cons, text?, number?, logFormat?,
    LogFormat.ofName?_name, Text.maxUnsigned, Text.countUnsigned, port, seconds, batch]

end Layers

end StackControl.Configuration
