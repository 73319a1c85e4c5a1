import StackControl.Text.Blank

/-!
# Configured command lines

A configured command is plain text.  Its words are the program and the arguments; there is no
quoting.
-/

namespace StackControl

/-- A program and its arguments. -/
structure CommandLine where
  program : String
  arguments : List String
deriving DecidableEq, Repr

namespace CommandLine

/-- Splits a text into words; the first one is the program.  A blank text is no command. -/
def parse? (raw : String) : Option CommandLine :=
  match (Text.words raw.toList).map String.ofList with
  | [] => none
  | program :: arguments => some ⟨program, arguments⟩

/-- Appends arguments, each of them as it is. -/
def append (line : CommandLine) (arguments : List String) : CommandLine :=
  { line with arguments := line.arguments ++ arguments }

/-- The program and the arguments, separated by single spaces. -/
def display (line : CommandLine) : String :=
  " ".intercalate (line.program :: line.arguments)

end CommandLine

end StackControl
