import StackControl.Errno
import StackControl.FileTree.Path

/-!
# File trees

A file tree holds directories, symbolic links and files below a root, and knows the directory
that relative paths start from.  Two names can be links to one file; so a name refers to a file
body, and the bodies are kept apart.
-/

namespace StackControl

/-- A place in a file tree: the names on the way from the root. -/
abbrev Location := List Name

/-- The path of a location, from the root. -/
def Location.toPath (loc : Location) : Path :=
  Path.separator :: [Path.separator].intercalate loc

/-- What stands at a location. -/
inductive Node
  | directory (mode : Nat)
  | link (target : Path)
  | file (body : Nat)
deriving DecidableEq, Repr

/-- The permissions and content of a file, shared by all its names. -/
structure FileBody where
  mode : Nat
  content : Bytes
deriving DecidableEq

/-- Everything below a root. -/
structure FileTree where
  nodes : List (Location × Node)
  bodies : List FileBody
  /-- The directory that relative paths start from. -/
  workingDirectory : Location
deriving DecidableEq

namespace FileTree

/-- The permissions of a new directory. -/
def directoryMode : Nat := 0o755

/-- The permissions of a new file. -/
def fileMode : Nat := 0o644

/-- What stands at a location; the root is always a directory. -/
def node? (tree : FileTree) : Location → Option Node
  | [] => some (.directory directoryMode)
  | loc => tree.nodes.lookup loc

/-- Replaces the first row of a key, or adds one at the end. -/
def upsert {κ α : Type} [BEq κ] (key : κ) (value : α) : List (κ × α) → List (κ × α)
  | [] => [(key, value)]
  | (k, v) :: rest => if k == key then (key, value) :: rest else (k, v) :: upsert key value rest

/-- Puts a node at a location, in place of what stood there. -/
def put (tree : FileTree) (loc : Location) (node : Node) : FileTree :=
  { tree with nodes := upsert loc node tree.nodes }

/-- Takes away the node at a location. -/
def drop (tree : FileTree) (loc : Location) : FileTree :=
  { tree with nodes := tree.nodes.filter (·.1 != loc) }

/-- Adds a file of its own at a location. -/
def putFile (tree : FileTree) (loc : Location) (body : FileBody) : FileTree :=
  { tree.put loc (.file tree.bodies.length) with bodies := tree.bodies ++ [body] }

/-- Changes the body of a file. -/
def setBody (tree : FileTree) (i : Nat) (body : FileBody) : FileTree :=
  { tree with bodies := tree.bodies.set i body }

/-- The names directly below a location. -/
def names (tree : FileTree) (loc : Location) : List Name :=
  tree.nodes.filterMap fun (l, _) =>
    match l.getLast? with
    | some n => if l.dropLast == loc then some n else none
    | none => none

/-- Whether a location lies at or below another. -/
def within (top loc : Location) : Bool :=
  top.isPrefixOf loc

/-- The owner may list or read. -/
def readable (mode : Nat) : Bool := mode &&& 0o400 != 0

/-- The owner may write. -/
def writable (mode : Nat) : Bool := mode &&& 0o200 != 0

/-- The owner may search or execute. -/
def searchable (mode : Nat) : Bool := mode &&& 0o100 != 0

/-- The tree with nothing but a working directory and the directories above it. -/
def empty (workingDirectory : Location) : FileTree where
  nodes := (List.range workingDirectory.length).map fun n =>
    (workingDirectory.take (n + 1), .directory directoryMode)
  bodies := []
  workingDirectory := workingDirectory

end FileTree

/-- Why a file operation did not succeed. -/
inductive Fault
  | os (error : Errno)
  | nulByte
  | notText
deriving DecidableEq, Repr

/-- The text of a fault in messages. -/
def Fault.message : Fault → String
  | .os error => error.message
  | .nulByte => "file name contained an unexpected NUL byte"
  | .notText => "stream did not contain valid UTF-8"

end StackControl
