import StackControl.LogFilter.Pattern
import StackControl.Text.Alphanumeric
import StackControl.Text.Blank
import StackControl.Text.Search

/-!
# Log filters

A log filter is a list of directives with commas between them.  A directive names a level, or a
target, a span and the fields of a span, and may give a level to what it names.  A word alone is
always a directive, since a word that is no level names a target.
-/

namespace StackControl.LogFilter

open Text Reader

/-- The names of levels. -/
def levelNames : List String :=
  ["error", "warn", "info", "debug", "trace", "off"]

/-- Whether a text is a level: a name in letters of either case, a number up to five, or nothing. -/
def isLevel (cs : List Char) : Bool :=
  cs.isEmpty || levelNames.contains (String.ofList (cs.map Char.toLower)) ||
    (natural? 10 5 cs).isSome

/-- Whether a directive can begin with a character, a bracket apart. -/
def isStart (c : Char) : Bool :=
  c == '-' || c == ':' || c == '_' || isAlphanumeric c

/-- Reads the level after an equals sign.  It is the whole rest of a directive, and the directive
must have no blanks around it then. -/
def assignedLevel (padded : Bool) : Reader Unit := do
  character '='
  let cs ← run fun _ => true
  guard (!padded && isLevel cs)

/-- Whether a text asks for a field of a span: its name, or its name and a pattern for its value. -/
def isField (cs : List Char) : Bool :=
  !cs.isEmpty &&
    match splitAt (· == '=') cs with
    | _ :: value :: _ => isPattern value
    | _ => true

/-- Reads a span and its field. -/
def span : Reader Unit := do
  character '['
  let _ ← run fun c => c != ']' && c != '\x7b'
  let _ ← maybe do
    character '\x7b'
    let field ← run (· != '\x7d')
    guard (isField field)
    character '\x7d'
  character ']'

/-- Reads a directive without the blanks around it. -/
def directive (padded : Bool) : Reader Unit := do
  span <|> do
    let _ ← satisfying isStart
    let _ ← run fun c => c != '=' && c != '['
    let _ ← maybe span
  let _ ← maybe (assignedLevel padded)

/-- Whether a text is a directive. -/
def isDirective (cs : List Char) : Bool :=
  let core := trim cs
  ((directive (core != cs)).whole? core).isSome

/-- Whether a text is a log filter; empty directives do not count. -/
def isValid (s : String) : Bool :=
  ((splitAt (· == ',') s.toList).filter (!·.isEmpty)).all isDirective

end StackControl.LogFilter
