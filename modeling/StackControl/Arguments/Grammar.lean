import StackControl.Text.Utf8
import StackControl.Text.Search

/-!
# The grammar of command lines

A grammar lists the options of a command, says whether it collects words, and names its
subcommands.  Reading a command line goes token by token.  The value of an option may stand in the
token after it; such an option, and the words collected so far, are pending, and they are settled
when the next option is recognised, when another kind of argument begins, and at the end.  So an
error in a pending argument can come after an error in a later token.
-/

namespace StackControl.Arguments

/-- Why a command line was not read to a command.  Help and version count too. -/
inductive UsageError
  | unknownArgument
  | invalidSubcommand
  | missingSubcommand
  | invalidValue
  | argumentConflict
  | tooManyValues
  | invalidUtf8
  | valueValidation
  | displayHelp
  | displayVersion
  | displayHelpOnMissingArgumentOrSubcommand
deriving DecidableEq, Repr

namespace UsageError

/-- Help and version are asked for and go to standard output; all else goes to standard error. -/
def isRequest : UsageError → Bool
  | displayHelp | displayVersion => true
  | _ => false

/-- The exit status of a run that ends with this. -/
def exitStatus (e : UsageError) : Nat :=
  if e.isRequest then 0 else 2

end UsageError

/-- What an option does when it is met. -/
inductive Action
  /-- Takes one value, which has to be readable. -/
  | store (read : Bytes → Except UsageError String)
  | setTrue
  | help
  | version

/-- An option, by its long name and perhaps a letter. -/
structure OptionSpec where
  long : String
  short : Option Char
  action : Action

/-- Reads a value that can be any text. -/
def readText (value : Bytes) : Except UsageError String :=
  match Utf8.decode? value with
  | some text => .ok text
  | none => .error .invalidUtf8

/-- An option that stores any text. -/
def textOption (long : String) : OptionSpec :=
  ⟨long, none, .store readText⟩

/-- A flag without a value. -/
def flagOption (long : String) : OptionSpec :=
  ⟨long, none, .setTrue⟩

/-- The request for help, which every command knows. -/
def helpOption : OptionSpec :=
  ⟨"help", some 'h', .help⟩

/-- A subcommand's name and its aliases. -/
structure SubcommandName where
  name : String
  aliases : List String

/-- What a command accepts. -/
structure Grammar where
  options : List OptionSpec
  /-- Whether words are collected. -/
  collectsWords : Bool
  /-- The subcommands, one of which must follow if there are any. -/
  subcommands : List SubcommandName

/-- What was read for one command. -/
structure Matches where
  /-- The options met, with their values. -/
  options : List (String × String)
  words : List String

namespace Matches

/-- The value of an option, if it was given. -/
def value? (found : Matches) (long : String) : Option String :=
  found.options.lookup long

/-- Whether an option was given. -/
def has (found : Matches) (long : String) : Bool :=
  (found.value? long).isSome

end Matches

/-- Arguments that were met but not settled. -/
inductive Pending
  | option (spec : OptionSpec) (value : Option Bytes)
  | words (tokens : List Bytes)

/-- How far a command line has been read. -/
structure Reading where
  found : Matches
  pending : Option Pending
  /-- Whether `--` was met, after which there are only words. -/
  onlyWords : Bool

namespace Reading

/-- Nothing has been read. -/
def start : Reading :=
  ⟨⟨[], []⟩, none, false⟩

/-- Records an option and its value; the option must not have been given before. -/
def record (r : Reading) (spec : OptionSpec) (value : Except UsageError String) :
    Except UsageError Reading :=
  if r.found.has spec.long then .error .argumentConflict
  else do
    let text ← value
    return { r with
      found := { r.found with options := r.found.options ++ [(spec.long, text)] } }

/-- Settles what is pending. -/
def settle (r : Reading) : Except UsageError Reading :=
  match r.pending with
  | none => .ok r
  | some (.option _ none) => .error .invalidValue
  | some (.option spec (some value)) =>
    match spec.action with
    | .store read => { r with pending := none }.record spec (read value)
    | _ => .ok { r with pending := none }
  | some (.words tokens) =>
    match tokens.mapM Utf8.decode? with
    | none => .error .invalidUtf8
    | some texts =>
      .ok { r with pending := none, found := { r.found with words := r.found.words ++ texts } }

/-- Acts on an option that was recognised, with the value attached to it, if any. -/
def meet (r : Reading) (spec : OptionSpec) (attached : Option Bytes) :
    Except UsageError Reading := do
  match spec.action, attached with
  | .store _, none =>
    let r ← r.settle
    return { r with pending := some (.option spec none) }
  | .store read, some value => (← r.settle).record spec (read value)
  | _, some _ => .error .tooManyValues
  | .setTrue, none => (← r.settle).record spec (.ok "")
  | .help, none =>
    let _ ← r.settle
    .error .displayHelp
  | .version, none =>
    let _ ← r.settle
    .error .displayVersion

/-- Takes a token as a word. -/
def word (r : Reading) (token : Bytes) : Except UsageError Reading :=
  match r.pending with
  | some (.words tokens) => .ok { r with pending := some (.words (tokens ++ [token])) }
  | _ => do
    let r ← r.settle
    return { r with pending := some (.words [token]) }

end Reading

/-- The dash of options. -/
def dash : UInt8 := byteOf '-'

/-- The shape of a token. -/
inductive Shape
  | escape
  | long (name : Bytes) (attached : Option Bytes)
  | letters (letters : Bytes)
  | plain

/-- The shape of a token: `--` alone, an option by its long name, options by letter, or neither;
a single dash is neither. -/
def shapeOf : Bytes → Shape
  | d :: rest =>
    if d == dash then
      match rest with
      | [] => .plain
      | e :: name =>
        if e == dash then
          if name.isEmpty then .escape
          else
            match Text.cutAt? (· == byteOf '=') name with
            | some (name, value) => .long name (some value)
            | none => .long name none
        else .letters rest
    else .plain
  | [] => .plain

namespace Grammar

/-- The option with a long name. -/
def long? (g : Grammar) (name : Bytes) : Option OptionSpec :=
  match Utf8.decode? name with
  | some text => g.options.find? (·.long == text)
  | none => none

/-- The subcommand that a token names. -/
def subcommand? (g : Grammar) (token : Bytes) : Option String :=
  match Utf8.decode? token with
  | some text => (g.subcommands.find? fun s => s.name == text || s.aliases.contains text).map (·.name)
  | none => none

/-- Acts on options given by letter, one after the other. -/
def readLetters (g : Grammar) (r : Reading) : List (Option Char) → Except UsageError Reading
  | [] => .ok r
  | none :: _ => .error .unknownArgument
  | some c :: rest =>
    match g.options.find? (·.short == some c) with
    | some spec => do g.readLetters (← r.meet spec none) rest
    | none => .error .unknownArgument

/-- The error of a word where none can stand. -/
def strayWord (g : Grammar) (r : Reading) (token : Bytes) : UsageError :=
  if g.subcommands.isEmpty then .unknownArgument
  else if r.onlyWords && (g.subcommand? token).isSome then .unknownArgument
  else .invalidSubcommand

/-- Takes a token as a word, if the command collects words. -/
def readWord (g : Grammar) (r : Reading) (token : Bytes) : Except UsageError Reading :=
  if g.collectsWords then r.word token else .error (g.strayWord r token)

/-- Reads a token that names no subcommand. -/
def readToken (g : Grammar) (r : Reading) (token : Bytes) : Except UsageError Reading :=
  if r.onlyWords then g.readWord r token
  else
    match shapeOf token, r.pending with
    | .escape, _ => .ok { r with onlyWords := true }
    | .long name attached, _ =>
      match g.long? name with
      | some spec => r.meet spec attached
      | none => .error .unknownArgument
    | .letters letters, _ => g.readLetters r (Utf8.units letters)
    | .plain, some (.option spec none) =>
      .ok { r with pending := some (.option spec (some token)) }
    | .plain, _ => g.readWord r token

/-- Whether the next token is the value of an option. -/
def awaitsValue (r : Reading) : Bool :=
  match r.pending with
  | some (.option _ none) => true
  | _ => false

/-- Reads tokens up to the subcommand, if one comes: how far it got, and the subcommand with the
tokens after it. -/
def read (g : Grammar) :
    Reading → List Bytes → Except UsageError (Reading × Option (String × List Bytes))
  | r, [] => .ok (r, none)
  | r, token :: rest =>
    match if r.onlyWords || awaitsValue r then none else g.subcommand? token with
    | some name => .ok (r, some (name, rest))
    | none => do g.read (← g.readToken r token) rest

/-- The error of a command line that names no subcommand where one is required. -/
def withoutSubcommand (found : Matches) : UsageError :=
  if found.options.isEmpty then .displayHelpOnMissingArgumentOrSubcommand else .missingSubcommand

/-- Reads the arguments of a command that has no subcommands. -/
def parseFlat (g : Grammar) (tokens : List Bytes) : Except UsageError Matches := do
  let (r, _) ← g.read .start tokens
  return (← r.settle).found

/-- Reads the arguments of a command with subcommands, of which `grammarOf` knows the grammars: what
stood before the subcommand, its name, and what stood after it. -/
def parse (g : Grammar) (grammarOf : String → Grammar) (tokens : List Bytes) :
    Except UsageError (Matches × String × Matches) := do
  let (r, next) ← g.read .start tokens
  match next with
  | some (name, rest) =>
    let inner ← (grammarOf name).parseFlat rest
    return ((← r.settle).found, name, inner)
  | none => .error (withoutSubcommand (← r.settle).found)

end Grammar

end StackControl.Arguments
