import StackControl.FileTree.Basic

/-!
# Archive entries

An archive is a sequence of entries, each with a path, a kind, permissions and content.  It may
break off: then the entries before the damage are all there is to it.
-/

namespace StackControl.Archive

/-- What an entry puts at its path. -/
inductive Kind
  | directory
  | hardLink
  | symbolicLink
  | file
  /-- A record about other entries, which puts nothing there. -/
  | note
deriving DecidableEq, Repr

/-- An entry of an archive. -/
structure Entry where
  path : Path
  kind : Kind
  /-- Where a link leads. -/
  target : Option Path
  /-- The permissions; none when they cannot be read. -/
  mode : Option Nat
  content : Bytes
  /-- Whether the content is all there. -/
  complete : Bool
deriving DecidableEq

/-- The entries of an archive, and whether it is damaged after them. -/
structure Contents where
  entries : List Entry
  damaged : Bool
deriving DecidableEq

/-- Why an archive could not be unpacked into a directory. -/
inductive UnpackFault
  /-- A directory could not be made. -/
  | fault (fault : Fault)
  /-- An entry names something outside the directory. -/
  | escapes (entry : String)
  /-- The archive is damaged, or an entry could not be written. -/
  | damaged
deriving DecidableEq, Repr

end StackControl.Archive
