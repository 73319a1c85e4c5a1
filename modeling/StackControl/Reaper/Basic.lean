import StackControl.Machine.Launch
import StackControl.Procedure
import StackControl.Reaper.Listing

/-!
# What reaping needs

To find and signal processes the reaper needs a registry of processes and the tool that lists
them, which may have to be installed first.
-/

namespace StackControl.Reaper

/-- Why the listing tool is not available. -/
inductive ToolError
  | launch (command package : String) (source : LaunchFault)
  | installFailed (command package : String) (status : Int)
  | stillMissing (binary package : String)
deriving DecidableEq, Repr

/-- The text of a tool error. -/
def ToolError.message : ToolError → String
  | launch command package source =>
    "failed to run '" ++ command ++ "' while installing " ++ package ++ ": " ++ source.message
  | installFailed command package status =>
    "'" ++ command ++ "' exited with status " ++ toString status ++ " while installing " ++ package
  | stillMissing binary package => binary ++ " is still missing after installing " ++ package

/-- How reaping fails. -/
inductive Error
  | tool (error : ToolError)
  | listProcesses (source : LaunchFault)
  | listFailed (status : Int)
  | invalidPid (pid : UInt32)
  | terminate (pid : UInt32) (source : Errno)
deriving DecidableEq, Repr

/-- The text of a reaping error. -/
def Error.message : Error → String
  | tool error => error.message
  | listProcesses source => "failed to list processes: " ++ source.message
  | listFailed status => "process listing exited with status " ++ toString status
  | invalidPid pid => "pid " ++ toString pid.toNat ++ " is out of range"
  | terminate pid source =>
    "failed to signal pid " ++ toString pid.toNat ++ ": " ++ source.symbolMessage

/-- A call of the reaper. -/
inductive Call
  /-- Whether a program can be found. -/
  | locate (binary : String)
  | install (package : String)
  /-- The processes that some pattern selects. -/
  | list (patterns : List String)
  /-- Sends the termination signal; a process that is gone counts as terminated. -/
  | terminate (handle : ProcessHandle)
deriving DecidableEq

/-- What a call is answered with. -/
abbrev Call.Answer : Call → Type
  | locate _ => Bool
  | install _ => Except ToolError Unit
  | list _ => Except Error (List ProcessHandle)
  | terminate _ => Except Error Unit

/-- A procedure over calls of the reaper. -/
abbrev Activity := Procedure Call Call.Answer

end StackControl.Reaper
