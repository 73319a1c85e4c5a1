import StackControl.Text.Search
import StackControl.Text.Utf8

/-!
# Paths

A path is a byte string.  Two readings of it are used.  The lexical one splits it into components
and decides joining, parents and what an archive entry names; it drops repeated separators and
inner `.` components.  The operational one, a `Route`, keeps every step, because the operating
system takes each of them.
-/

namespace StackControl

/-- The path of a file, as it is handed to the operating system. -/
abbrev Path := Bytes

/-- A name inside a directory. -/
abbrev Name := Bytes

namespace Path

/-- The byte that separates the names of a path. -/
def separator : UInt8 := byteOf '/'

/-- The name of the directory itself. -/
def dot : Name := [byteOf '.']

/-- The name of the parent directory. -/
def dotDot : Name := [byteOf '.', byteOf '.']

/-- A component of a path, read lexically. -/
inductive Component
  | root
  | here
  | up
  | name (n : Name)
deriving DecidableEq, Repr

/-- The component that a part between separators stands for, inside a path. -/
def innerComponent? (part : Bytes) : Option Component :=
  if part.isEmpty || part == dot then none
  else if part == dotDot then some .up
  else some (.name part)

/-- The components of a path.  A leading `.` counts, any other is dropped, and so are empty
parts. -/
def components (path : Path) : List Component :=
  match Text.splitAt (· == separator) path with
  | [] => []
  | first :: others =>
    let rest := others.filterMap innerComponent?
    if first.isEmpty then
      if others.isEmpty then rest else .root :: rest
    else if first == dot then .here :: rest
    else (innerComponent? first).toList ++ rest

/-- Whether a path starts at the root. -/
def isAbsolute (path : Path) : Bool :=
  path.head? == some separator

/-- Whether a path ends in a separator. -/
def endsInSeparator (path : Path) : Bool :=
  path.getLast? == some separator

/-- Follows `base` by `path`; an absolute `path` replaces the base. -/
def join (base path : Path) : Path :=
  if path.isAbsolute then path
  else if base.isEmpty || base.endsInSeparator then base ++ path
  else base ++ separator :: path

/-- Follows `base` by `path`, both given as text. -/
def joinText (base path : String) : String :=
  if path.startsWith "/" then path
  else if base.isEmpty || base.endsWith "/" then base ++ path
  else base ++ "/" ++ path

/-- The name of a component inside a path. -/
def Component.part : Component → Bytes
  | .root => []
  | .here => dot
  | .up => dotDot
  | .name n => n

/-- The path with the given components. -/
def ofComponents (cs : List Component) : Path :=
  match cs with
  | [.root] => [separator]
  | _ => [separator].intercalate (cs.map Component.part)

/-- The path of the directory that holds what a path names; none for the root and for the empty
path. -/
def parent? (path : Path) : Option Path :=
  let cs := path.components
  if cs.isEmpty || cs == [.root] then none
  else some (ofComponents cs.dropLast)

/-- The paths above a path given by its components, nearest first. -/
def above : List Component → List Path
  | cs => (List.range cs.length).reverse.filterMap fun n =>
      let front := cs.take n
      if cs.head? == some .root && front.isEmpty then none else some (ofComponents front)

/-- A path as the steps that the operating system takes. -/
structure Route where
  absolute : Bool
  steps : List Name
  /-- A path that ends in a separator names a directory. -/
  directory : Bool

/-- The steps of a path. -/
def route (path : Path) : Route :=
  ⟨path.isAbsolute, (Text.splitAt (· == separator) path).filter (!·.isEmpty),
    path.endsInSeparator⟩

end Path

end StackControl
