import StackControl.Run

/-!
# What a rehearsed run says

What the parser of the command line says of help and of mistakes is worded by the parser.  A
rehearsal has words of its own for it, and notes what they were about.
-/

namespace StackControl.Rehearsal

/-- The words for a command line that was not read to a command. -/
def usageWords : Arguments.UsageError → String
  | .displayVersion => Arguments.versionText
  | .displayHelp =>
    "usage: stackctl [configuration flags] [stack flags] <" ++
      "|".intercalate (Arguments.subcommands.map (·.name)) ++ "> [options]\n"
  | _ => "the command line is not well formed; --help shows how to write it"

/-- The words of a notice. -/
def noticeWords : Run.Notice → String
  | .usage error => usageWords error
  | .text message => message

/-- What a command line was refused with, or which help was asked for; the version is printed as it
is. -/
def refusalOf? : Run.Notice → Option Arguments.UsageError
  | .usage .displayVersion | .text _ => none
  | .usage error => some error

end StackControl.Rehearsal
