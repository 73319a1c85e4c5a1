import StackControl.Arguments.Grammar
import StackControl.Arguments.Split
import StackControl.Config
import StackControl.Configuration.Value
import StackControl.Text.Number

/-!
# Configuration flags

Every field of the configuration can be given by a flag, and one more flag names a configuration
file.  A flag spells the name of its field with dashes.
-/

namespace StackControl.Configuration.Flags

open Arguments (Grammar Matches OptionSpec UsageError)

/-- The flag of a field, without its dashes in front. -/
def nameOf (field : String) : String :=
  String.ofList (field.toList.map fun c => if c == '_' then '-' else c)

/-- The value that a text on the command line gives to a field of some kind. -/
def valueOf? : Config.Kind → String → Option Value
  | .text, s => some (.text s)
  | .number 64, s => (Text.natural? 10 (Text.maxUnsigned 64) s.toList).map fun n => .integer n
  | .number bits, s => (Text.integer? 0 (Text.maxUnsigned bits) s.toList).map .integer
  | .logFormat, s => (LogFormat.parse? s).map fun format => .text format.name

/-- The option of a field. -/
def fieldOption (field : String) (kind : Config.Kind) : OptionSpec :=
  ⟨nameOf field, none, .store fun value => do
    let text ← Arguments.readText value
    if (valueOf? kind text).isSome then return text else .error .valueValidation⟩

/-- The name of the option for a configuration file. -/
def pathName : String := "config-path"

/-- The option for a configuration file, which can be any path but the empty one. -/
def pathOption : OptionSpec :=
  ⟨pathName, none, .store fun value =>
    if value.isEmpty then .error .invalidValue else .ok (Utf8.decodeLossy value)⟩

/-- The grammar of configuration flags. -/
def grammar : Grammar where
  options :=
    pathOption :: Config.fields.map (fun (field, kind) => fieldOption field kind) ++
      [Arguments.helpOption]
  collectsWords := false
  subcommands := []

/-- The flags that begin a command line are those of the grammar, help apart. -/
theorem configurationFlags_eq :
    Arguments.configurationFlags =
      (pathName :: Config.fields.map fun field => nameOf field.1).map ("--" ++ ·) := by
  decide +kernel

/-- What the flags say: the configuration file, and the fields. -/
structure Given where
  path : Option String
  layer : Layer

/-- What was read says about the configuration. -/
def givenBy (found : Matches) : Given where
  path := found.value? pathName
  layer := Config.fields.filterMap fun (field, kind) => do
    let text ← found.value? (nameOf field)
    return (field, ← valueOf? kind text)

/-- Reads configuration flags. -/
def parse (arguments : List Bytes) : Except UsageError Given :=
  givenBy <$> grammar.parseFlat arguments

end StackControl.Configuration.Flags
