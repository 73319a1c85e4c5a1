import StackControl.Arguments.Grammar
import StackControl.Lifecycle.Command
import StackControl.Settings

/-!
# The command line of the tool

The options of stack settings may stand before the subcommand and after it; given on both sides,
the later one counts.
-/

namespace StackControl.Arguments

open Lifecycle (Command)

/-- The request for the version, which only the tool itself knows. -/
def versionOption : OptionSpec :=
  ⟨"version", some 'V', .version⟩

/-- The options of the stack settings, known on both sides of the subcommand. -/
def settingOptions : List OptionSpec :=
  StackKey.all.map fun key => textOption key.optionName

/-- The subcommands. -/
def subcommands : List SubcommandName :=
  [ ⟨"up", []⟩, ⟨"down", []⟩, ⟨"destroy", []⟩, ⟨"status", []⟩, ⟨"logs", []⟩
  , ⟨"shell", ["attach"]⟩, ⟨"test", []⟩, ⟨"start", []⟩, ⟨"stop", []⟩ ]

/-- What stands before the subcommand. -/
def toolGrammar : Grammar where
  options := settingOptions ++ [helpOption, versionOption]
  collectsWords := false
  subcommands := subcommands

/-- The options of a subcommand beside the stack settings. -/
def ownOptions : String → List OptionSpec
  | "up" => [flagOption "rebuild"]
  | "logs" => [textOption "output"]
  | "stop" => [flagOption "forward"]
  | _ => []

/-- What stands after a subcommand. -/
def commandGrammar (name : String) : Grammar where
  options := settingOptions ++ ownOptions name ++ [helpOption]
  collectsWords := name == "test"
  subcommands := []

/-- The command with a name and what was read after it. -/
def commandOf (found : Matches) : String → Command
  | "up" => .up (found.has "rebuild")
  | "down" => .down
  | "destroy" => .destroy
  | "status" => .status
  | "logs" => .logs (found.value? "output")
  | "shell" => .shell
  | "test" => .test found.words
  | "start" => .start
  | _ => .stop (found.has "forward")

/-- A command and the stack settings given with it. -/
structure Request where
  settings : ExplicitSettings
  command : Command

/-- The stack settings given before and after a subcommand. -/
def settingsOf (before after : Matches) : ExplicitSettings where
  value key := (after.value? key.optionName).or (before.value? key.optionName)

/-- Reads a command line whose first token is the program. -/
def parse (arguments : List Bytes) : Except UsageError Request := do
  let (before, name, after) ← toolGrammar.parse commandGrammar (arguments.drop 1)
  return ⟨settingsOf before after, commandOf after name⟩

/-- What the tool prints when it is asked for its version. -/
def versionText : String := "stackctl 0.1.0\n"

end StackControl.Arguments
