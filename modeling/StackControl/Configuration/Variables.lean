import StackControl.Configuration.Value
import StackControl.Text.Blank
import StackControl.Text.Quoted
import StackControl.Text.Search
import StackControl.Text.Utf8

/-!
# Configuration from the environment

A variable whose name begins with a fixed text gives a value to the field that the rest of its name
spells; letters of names match in either case.  The text of a variable is first read as a value of a
small notation: truth values, lists, tables, numbers, quoted texts and single characters.  What has
no meaning in it is a text.
-/

namespace StackControl.Configuration.Variables

open Text Reader

/-! ## Values -/

/-- The blanks that may stand around a value. -/
def isSpace (c : Char) : Bool :=
  c.isWhitespace || c == '\x0C'

/-- Reads blanks. -/
def spaces : Reader Unit := do
  let _ ← run isSpace

/-- The characters that end a value without quotes. -/
def isSeparator (c : Char) : Bool :=
  [',', '\x7b', '\x7d', '[', ']'].contains c

/-- Reads digits and answers whether there were any. -/
def digits : Reader Bool := do
  return !(← run Char.isDigit).isEmpty

/-- Reads the exponent of a number. -/
def exponent : Reader Unit := do
  let _ ← satisfying fun c => c == 'e' || c == 'E'
  let _ ← maybe (satisfying fun c => c == '+' || c == '-')
  let _ ← someRun Char.isDigit

/-- Reads a decimal number with a point, which has a digit on one side of it at least. -/
def fractional : Reader Unit := do
  let _ ← maybe (satisfying fun c => c == '+' || c == '-')
  let before ← digits
  character '.'
  let after ← digits
  guard (before || after)
  let _ ← maybe exponent

/-- The value of a text without quotes. -/
def plainValue (cs : List Char) : Value :=
  if (fractional.whole? cs).isSome then .other
  else
    match integer? (minSigned 64) (maxUnsigned 64) cs with
    | some n => .integer n
    | none => .text (String.ofList cs)

/-- Reads a single character in single quotes. -/
def singleCharacter : Reader Value := do
  character '\''
  let c ← next
  character '\''
  return .text (String.ofList [c])

/-- Reads the name of an entry of a table. -/
def entryName : Reader Unit := do
  match ← ahead with
  | some '"' => let _ ← quoted
  | _ => let _ ← someRun fun c => c.isAlphanum || c == '_' || c == '-'

/-- Reads items between brackets, with commas between them and perhaps after the last. -/
def bracketed (opening closing : Char) (item : Reader Unit) : Reader Value := do
  character opening
  let _ ← separated true do
    guard ((← ahead) != some closing)
    item
  character closing
  return .other

/-- Reads a value and the blanks around it.  The number bounds the depth of nesting. -/
def value : Nat → Reader Value
  | 0 => failure
  | depth + 1 => do
    spaces
    let v ←
      if ← accepts (word "true" <|> word "false") then pure .other
      else
        match ← ahead with
        | some '\x7b' => bracketed '\x7b' '\x7d' (entry depth)
        | some '[' => bracketed '[' ']' (do let _ ← value depth)
        | some '"' => .text <$> quoted
        | some '\'' => singleCharacter
        | _ => (plainValue ∘ trim) <$> run fun c => !isSeparator c
    spaces
    return v
where
  /-- Reads an entry of a table. -/
  entry (depth : Nat) : Reader Unit := do
    spaces
    entryName
    spaces
    character '='
    let _ ← value depth
    return

/-- Whether a text is a truth value, in letters of either case. -/
def isTruthValue (cs : List Char) : Bool :=
  let word := String.ofList (cs.map Char.toLower)
  word == "true" || word == "false"

/-- Whether a text begins like a list, a table or a quoted text. -/
def isDelimited (cs : List Char) : Bool :=
  ['[', '\x7b', '"', '\''].any (cs.head? == some ·)

/-- The value of a variable.  Without delimiters a comma makes it a list. -/
def valueOf (bytes : Bytes) : Value :=
  let cs := trim (Utf8.decodeLossy bytes).toList
  if isTruthValue cs then .other
  else if cs.contains ',' && !isDelimited cs then .other
  else ((value (cs.length + 1)).whole? cs).getD (.text (String.ofList cs))

/-! ## Names -/

/-- What the names of variables for the configuration begin with. -/
def marker : String := "stackctl_"

/-- The parts of a name after its beginning.  A pair of underscores stands for a dot, and a dot leads
into a part of a field. -/
def segments (cs : List Char) : List (List Char) :=
  splitAt (· == '.') (replaceAll ['_', '_'] ['.'] cs)

/-- The field that the name of a variable spells, and whether the variable gives all of it. -/
def field? (name : String) : Option (String × Bool) := do
  let cs := (trim name.toList).map Char.toLower
  let rest ← marker.toList.isPrefixOf? cs
  let parts := segments (trim rest)
  guard !(parts.any List.isEmpty)
  return (String.ofList (parts.headD []), parts.length == 1)

/-- What a variable says. -/
def row? (name : String) (bytes : Bytes) : Option (String × Value) := do
  let (field, isWhole) ← field? name
  return (field, if isWhole then valueOf bytes else .other)

/-- What an environment says about the configuration.  Of several variables for one field the last
one in the order of names counts. -/
def layer (environment : List (String × Bytes)) : Layer :=
  (environment.mergeSort fun a b => b.1 ≤ a.1).filterMap fun (name, bytes) => row? name bytes

end StackControl.Configuration.Variables
