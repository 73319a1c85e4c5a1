/-!
# Exit statuses

A child process ends with a wait status, a packed 32-bit number.  It is read as an exit code in
the way of a shell: the code of an ordinary exit, 128 and the signal for a death by signal.  The
status that a run itself reports is a byte, and a code that is none is reported as a failure.
-/

namespace StackControl

/-- How a child process ended, packed as the operating system reports it. -/
abbrev WaitStatus := BitVec 32

namespace WaitStatus

/-- The bits that tell how a process ended: zero for an exit, else the signal. -/
def ending (status : WaitStatus) : Nat :=
  (status &&& 0x7F#32).toNat

/-- The code of an ordinary exit. -/
def exitCode? (status : WaitStatus) : Option Nat :=
  if status.ending = 0 then some ((status >>> 8) &&& 0xFF#32).toNat else none

/-- The signal that killed the process. -/
def signal? (status : WaitStatus) : Option Nat :=
  if 0 < status.ending ∧ status.ending < 0x7F then some status.ending else none

/-- The exit code of a process that was neither left nor killed. -/
def unknownExit : Int := 1

/-- The exit code that stands for a wait status. -/
def code (status : WaitStatus) : Int :=
  match status.exitCode?, status.signal? with
  | some code, _ => code
  | none, some signal => 128 + signal
  | none, none => unknownExit

/-- The status of an ordinary exit with a code below 256. -/
def exited (code : Nat) : WaitStatus :=
  BitVec.ofNat 32 (code % 256 * 256)

/-- The status of a death by signal. -/
def killed (signal : Nat) : WaitStatus :=
  BitVec.ofNat 32 (signal % 128)

/-- Whether a process ended well. -/
def isSuccess (status : WaitStatus) : Bool :=
  status == 0

end WaitStatus

/-- The status that a run reports for an exit code. -/
def reportedStatus (code : Int) : Nat :=
  if 0 ≤ code ∧ code ≤ 255 then code.toNat else 1

end StackControl
