import StackControl.Text.Quoted

/-!
# Patterns for field values

A log filter can ask that the value of a field matches a regular expression.  Here only its form is
checked: groups and classes are closed, a repetition has something to repeat, and escapes are known.
A counted repetition cannot be written, because a closing brace ends the field.
-/

namespace StackControl.LogFilter

open Text Reader

/-- Letters that a backslash gives a meaning. -/
def escapeLetters : List Char :=
  ['a', 'f', 'n', 'r', 't', 'v', 'A', 'z', 'd', 'D', 's', 'S', 'w', 'W']

/-- Reads what follows a backslash. -/
def patternEscape : Reader Unit := do
  let c ← next
  if c == 'x' then let _ ← scalar 2
  else if c == 'u' then let _ ← scalar 4
  else if c == 'U' then let _ ← scalar 8
  else guard (escapeLetters.contains c || (' ' ≤ c && c < '\x7F' && !c.isAlphanum))

/-- Reads a class of characters.  A bracket that comes first stands for itself. -/
def characterClass : Nat → Reader Unit
  | 0 => failure
  | depth + 1 => do
    character '['
    let _ ← maybe (character '^')
    let _ ← maybe (character ']')
    let _ ← many ((do character '\\'; patternEscape) <|> characterClass depth <|>
      (do let _ ← satisfying fun c => c != '\\' && c != '[' && c != ']'))
    character ']'

/-- Characters that mean something in a pattern. -/
def operators : List Char :=
  ['(', ')', '[', '\\', '|', '*', '+', '?', '\x7b']

/-- Whether a character of a pattern stands for itself, an edge or any character. -/
def isPlainPattern (c : Char) : Bool :=
  !operators.contains c

/-- Reads what may come between the opening parenthesis of a group and its content. -/
def groupKind : Reader Unit := do
  let _ ← maybe do
    character '?'
    (do
      let _ ← maybe (character 'P')
      character '<'
      let _ ← someRun fun c => c.isAlphanum || c == '_'
      character '>') <|>
      (do
        let _ ← run fun c => ['i', 'm', 's', 'U', 'u', 'x', 'R', '-'].contains c
        character ':')

/-- Reads a pattern. -/
def pattern : Nat → Reader Unit
  | 0 => failure
  | depth + 1 => do
    let _ ← many (piece depth)
    let _ ← many do
      character '|'
      many (piece depth)
where
  /-- Reads a part of a pattern and what repeats it. -/
  piece (depth : Nat) : Reader Unit := do
    (do character '\\'; patternEscape) <|> characterClass depth <|>
      (do let _ ← satisfying isPlainPattern) <|>
      (do
        character '('
        groupKind
        pattern depth
        character ')')
    let _ ← run fun c => c == '*' || c == '+' || c == '?'

/-- Whether a text is a pattern. -/
def isPattern (cs : List Char) : Bool :=
  ((pattern (cs.length + 1)).whole? cs).isSome

end StackControl.LogFilter
