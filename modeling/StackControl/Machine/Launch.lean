import StackControl.Errno
import StackControl.ExitStatus
import StackControl.Text.Utf8

/-!
# Launching programs

A launch names a program, its arguments and the variables set for it over the inherited ones.  No
part of it can hold a NUL character.
-/

namespace StackControl

/-- Why a program could not be launched. -/
inductive LaunchFault
  | os (error : Errno)
  | nulByte
deriving DecidableEq, Repr

/-- The text of a launch fault in messages. -/
def LaunchFault.message : LaunchFault → String
  | .os error => error.message
  | .nulByte => "nul byte found in provided data"

/-- A program to launch. -/
structure Launch where
  program : String
  arguments : List String
  environment : List (String × String)
deriving DecidableEq, Repr

namespace Launch

/-- A launch that adds nothing to the environment. -/
def plain (program : String) (arguments : List String) : Launch :=
  ⟨program, arguments, []⟩

/-- Whether a text holds a NUL character. -/
def holdsNul (s : String) : Bool :=
  s.toList.contains '\x00'

/-- A part of a launch as messages show it. -/
def shownPart (s : String) : String :=
  if holdsNul s then "<string-with-nul>" else s

/-- The launch as messages show it: the program and the arguments, separated by spaces. -/
def label (launch : Launch) : String :=
  " ".intercalate ((launch.program :: launch.arguments).map shownPart)

/-- Whether some part of a launch holds a NUL character. -/
def hasNul (launch : Launch) : Bool :=
  (launch.program :: launch.arguments).any holdsNul ||
    launch.environment.any fun (name, value) => holdsNul name || holdsNul value

/-- The value that a launched program sees for a variable, given the inherited one; a later
setting of the same variable wins. -/
def visible (launch : Launch) (inherited : Option Bytes) (name : String) : Option Bytes :=
  match launch.environment.reverse.lookup name with
  | some value => some (Utf8.encode value)
  | none => inherited

end Launch

/-- How a launched program ended, and what it wrote. -/
structure Finished where
  status : WaitStatus
  stdout : Bytes
  stderr : Bytes

/-- How a launched program relates to the run, which waits for it in each case. -/
inductive Manner
  /-- It reads nothing, and what it writes is kept. -/
  | captured
  /-- What it writes is dropped. -/
  | discarded
  /-- It reads nothing, and writes to the streams of the run. -/
  | unattended
  /-- It shares the streams of the run. -/
  | attached
  /-- As attached; termination signals that reach the run are passed on to it. -/
  | supervised
deriving DecidableEq, Repr

end StackControl
