import StackControl.Text.Blank
import StackControl.Text.Number
import StackControl.Text.Search

/-!
# Process listings

A process listing has a line for each process: its number, then its command line.  Processes are
selected by patterns, which are looked for anywhere in the command line; an empty pattern selects
nothing, and the process that asks is never selected.
-/

namespace StackControl.Reaper

/-- A running process. -/
structure ProcessHandle where
  pid : UInt32
  commandLine : String
deriving DecidableEq, Repr

/-- Reads a process number. -/
def pid? (cs : List Char) : Option UInt32 :=
  (Text.natural? 10 (Text.maxUnsigned 32) cs).map UInt32.ofNat

/-- Reads a line of a listing: a number, a blank, and the command line. -/
def handleOf? (line : List Char) : Option ProcessHandle := do
  let (number, rest) ← Text.cutAt? Text.isBlank (Text.trimStart line)
  let pid ← pid? number
  return ⟨pid, String.ofList (Text.trim rest)⟩

/-- Whether a pattern that is not empty occurs in the command line. -/
def ProcessHandle.matchesPattern (handle : ProcessHandle) (pattern : String) : Bool :=
  !pattern.isEmpty && Text.contains pattern.toList handle.commandLine.toList

/-- Whether some pattern selects a process. -/
def ProcessHandle.matchesAny (handle : ProcessHandle) (patterns : List String) : Bool :=
  patterns.any handle.matchesPattern

/-- The processes of a listing that some pattern selects, without the asking process. -/
def matching (listing : String) (patterns : List String) (ownPid : Nat) : List ProcessHandle :=
  (((Text.lines listing.toList).filterMap handleOf?).filter (·.pid.toNat != ownPid)).filter
    (·.matchesAny patterns)

end StackControl.Reaper
