import StackControl.Archive.Basic
import StackControl.Procedure
import StackControl.Machine.Launch

/-!
# Calls to the operating system

Everything a run does outside itself comes down to these calls: launching programs, signalling
processes, working on files, telling the time and printing.
-/

namespace StackControl.Machine

/-- A request to work on files. -/
inductive FileRequest
  | list (path : Path)
  | readText (path : Path)
  | write (path : Path) (content : Bytes)
  | makeDirectories (path : Path)
  | removeDirectories (path : Path)
  /-- Unpacks an archive into a directory, without its top level. -/
  | unpack (archive : Bytes) (target : Path)
deriving DecidableEq

/-- What a file request is answered with. -/
abbrev FileRequest.Answer : FileRequest → Type
  | list _ => Except Fault (List Name)
  | readText _ => Except Fault String
  | write _ _ | makeDirectories _ | removeDirectories _ => Except Fault Unit
  | unpack _ _ => Except Archive.UnpackFault Unit

/-- A request to a clock that counts nanoseconds. -/
inductive ClockRequest
  | now
  | sleep (pause : Nat)
deriving DecidableEq

/-- What a clock request is answered with. -/
abbrev ClockRequest.Answer : ClockRequest → Type
  | now => Nat
  | sleep _ => Unit

/-- The output streams of a run. -/
inductive OutputStream
  | stdout
  | stderr
deriving DecidableEq, Repr

/-- A call to the operating system. -/
inductive Call
  /-- Launches a program and waits for it. -/
  | launch (launch : Launch) (manner : Manner)
  /-- Launches a program that runs on by itself. -/
  | spawn (launch : Launch)
  /-- Sends the termination signal. -/
  | terminate (pid : Int)
  | ownPid
  /-- The value of `PATH`. -/
  | searchPath
  /-- Whether a path names a regular file. -/
  | isFile (path : Path)
  | files (request : FileRequest)
  | clock (request : ClockRequest)
  /-- Writes a line to a stream of the run. -/
  | print (stream : OutputStream) (line : String)

/-- What a call is answered with. -/
abbrev Call.Answer : Call → Type
  | launch _ _ => Except LaunchFault Finished
  | spawn _ => Except LaunchFault Unit
  | terminate _ => Except Errno Unit
  | ownPid => Nat
  | searchPath => Option Bytes
  | isFile _ => Bool
  | files request => request.Answer
  | clock request => request.Answer
  | print _ _ => Except Errno Unit

/-- A procedure over calls to the operating system. -/
abbrev Activity := Procedure Call Call.Answer

/-- Launches a program and waits for it. -/
def launch (launch : Launch) (manner : Manner) : Activity (Except LaunchFault Finished) :=
  Procedure.call (Call.launch launch manner)

/-- Launches a program that runs on by itself. -/
def spawn (launch : Launch) : Activity (Except LaunchFault Unit) :=
  Procedure.call (Call.spawn launch)

/-- Sends the termination signal to a process. -/
def terminate (pid : Int) : Activity (Except Errno Unit) :=
  Procedure.call (Call.terminate pid)

/-- The process identifier of the run itself. -/
def ownPid : Activity Nat :=
  Procedure.call Call.ownPid

/-- The value of `PATH`, if it is set. -/
def searchPath : Activity (Option Bytes) :=
  Procedure.call Call.searchPath

/-- Whether a path names a regular file. -/
def isFile (path : Path) : Activity Bool :=
  Procedure.call (Call.isFile path)

end StackControl.Machine
