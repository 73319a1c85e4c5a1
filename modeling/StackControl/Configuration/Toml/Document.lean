import StackControl.Configuration.Toml.Scalar
import StackControl.Configuration.Toml.Table

/-!
# Documents

A document in TOML is a sequence of lines: keys with their values, and headers that say which table
the keys after them belong to.  Lists and tables can be written inside a line; they nest to a limited
depth and are closed once they are written.
-/

namespace StackControl.Configuration.Toml

open Text Reader

/-- Reads a comment, which goes up to the end of the line. -/
def comment : Reader Unit := do
  character '#'
  let _ ← run isPrintable

/-- Reads what may stand between the items of a list. -/
def listSpace : Reader Unit := do
  let _ ← many ((do let _ ← satisfying isSpace) <|> lineEnd <|> (do comment; lineEnd))

/-- The characters of a key without quotes. -/
def isKeyCharacter (c : Char) : Bool :=
  c.isAlphanum || c == '_' || c == '-'

/-- Reads one part of a key. -/
def keyPart : Reader String :=
  quoted <|> literal <|> (String.ofList <$> someRun isKeyCharacter)

/-- The number of levels to which keys, lists and tables may nest. -/
def depthLimit : Nat := 79

/-- Reads a key: the parts that lead to a table, and the last one. -/
def key : Reader (List String × String) := do
  spaces
  let first ← keyPart
  spaces
  let others ← many do
    character '.'
    spaces
    let part ← keyPart
    spaces
    return part
  let parts := first :: others
  if parts.length > depthLimit then failure
  else return (parts.dropLast, parts.getLastD "")

/-- Reads a value.  The number bounds the depth of what can still be nested in it. -/
def value : Nat → Reader Value
  | 0 => scalarValue
  | depth + 1 => scalarValue <|> list depth <|> inlineTable depth
where
  /-- Reads a list. -/
  list (depth : Nat) : Reader Value := do
    character '['
    let _ ← separated true do
      listSpace
      let v ← value depth
      listSpace
      return v
    listSpace
    character ']'
    return .other
  /-- Reads a table written inside a line; its keys are held to the rules of all tables. -/
  inlineTable (depth : Nat) : Reader Value := do
    character '\x7b'
    let rows ← separated false (row depth)
    spaces
    character '\x7d'
    match rows.foldlM (fun entries (row : (List String × String) × Value) =>
        Entries.insert row.1.1 row.1.2 row.2 entries) [] with
    | some _ => return .other
    | none => failure
  /-- Reads a key and its value. -/
  row (depth : Nat) : Reader ((List String × String) × Value) := do
    let k ← key
    character '='
    spaces
    let v ← value depth
    spaces
    return (k, v)

/-- What a line adds to a document. -/
inductive Line
  | assign (path : List String) (key : String) (v : Value)
  | header (path : List String) (key : String)
  | listHeader (path : List String) (key : String)
  | nothing

/-- Reads a line up to its comment. -/
def line : Reader Line :=
  (do
    word "[["
    let (path, k) ← key
    word "]]"
    return .listHeader path k) <|>
  (do
    character '['
    let (path, k) ← key
    character ']'
    return .header path k) <|>
  (do
    let (path, k) ← key
    character '='
    spaces
    return .assign path k (← value depthLimit)) <|>
  pure .nothing

/-- Reads the lines of a document. -/
def document : Reader (List Line) := do
  let _ ← maybe (character '\uFEFF')
  let fullLine : Reader Line := do
    spaces
    let l ← line
    spaces
    let _ ← maybe comment
    return l
  let first ← fullLine
  let others ← many do
    lineEnd
    fullLine
  return first :: others

/-- A document in the making: its tables, and the header that holds. -/
structure Draft where
  entries : Entries
  header : Option (List String × String)

/-- Adds a line to a document. -/
def Draft.add (d : Draft) : Line → Option Draft
  | .nothing => some d
  | .header path k => do
    return ⟨← d.entries.define path k, some (path, k)⟩
  | .listHeader path k => do
    return ⟨← d.entries.append path k, some (path, k)⟩
  | .assign path k v => do
    let place := match d.header with
      | some (above, last) => above ++ [last]
      | none => []
    return { d with entries := ← d.entries.below place (Entries.insert path k v) }

/-- The fields that a document gives. -/
def parse? (s : String) : Option Layer := do
  let lines ← document.whole? s.toList
  let draft ← lines.foldlM Draft.add ⟨[], none⟩
  return draft.entries.toLayer

end StackControl.Configuration.Toml
