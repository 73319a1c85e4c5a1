import StackControl.Text.Utf8
import StackControl.Text.Search

/-!
# Configuration flags

Configuration flags stand at the start of the command line, before stack settings and the command.
The split takes them off, with their values, for the configuration loader; every other token is
left to the command parser.  When a command is forwarded into the primary container its
configuration flags go with it, except the one that names a file on this host.
-/

namespace StackControl.Arguments

/-- The flags of the configuration loader. -/
def configurationFlags : List String :=
  [ "--config-path"
  , "--log-filter"
  , "--log-format"
  , "--engine"
  , "--compose-dir"
  , "--contracts-dir"
  , "--revision-template"
  , "--rpc-port"
  , "--ready-timeout-secs"
  , "--service-command"
  , "--test-command"
  , "--test-file-command"
  , "--shell-command"
  , "--provision-command"
  , "--provision-batch"
  , "--plugin-cache-dir" ]

/-- The flag that names a configuration file of this host. -/
def configPathFlag : String := "--config-path"

/-- Reads a token as a configuration flag: whether its value is the next token. -/
def flagNeedsValue? (token : Bytes) : Option Bool :=
  let text := (Utf8.decodeLossy token).toList
  let (flag, needsValue) :=
    match Text.cutAt? (· == '=') text with
    | some (flag, _) => (flag, false)
    | none => (text, true)
  if configurationFlags.contains (String.ofList flag) then some needsValue else none

/-- The longest run of configuration flags and their values; `pending` says that the first token
is the value of a flag before it. -/
def leadingFlags : Bool → List Bytes → List Bytes
  | _, [] => []
  | true, token :: rest => token :: leadingFlags false rest
  | false, token :: rest =>
    match flagNeedsValue? token with
    | some needsValue => token :: leadingFlags needsValue rest
    | none => []

/-- A command line cut in two: the program with the configuration flags, and the position of
the first token after them. -/
structure Split where
  configuration : List Bytes
  commandStart : Nat
deriving DecidableEq

/-- Splits a command line whose first token is the program. -/
def split : List Bytes → Split
  | [] => ⟨[], 0⟩
  | program :: rest =>
    let flags := leadingFlags false rest
    ⟨program :: flags, flags.length + 1⟩

/-- What the command parser reads: the program and the tokens that the split left. -/
def commandArguments (arguments : List Bytes) : List Bytes :=
  arguments.take 1 ++ arguments.drop (split arguments).commandStart

/-- Drops the flag that names a configuration file, and its value; `skip` says that the first
token is its value. -/
def withoutConfigPath : Bool → List String → List String
  | _, [] => []
  | true, _ :: rest => withoutConfigPath false rest
  | false, token :: rest =>
    if token == configPathFlag then withoutConfigPath true rest
    else if token.startsWith (configPathFlag ++ "=") then withoutConfigPath false rest
    else token :: withoutConfigPath false rest

/-- The configuration flags that are repeated inside the container, given those of the command
line after its program. -/
def forwardedFlags (configuration : List Bytes) : List String :=
  withoutConfigPath false ((configuration.drop 1).map Utf8.decodeLossy)

end StackControl.Arguments
