import StackControl.Archive.Reader
import StackControl.FileTree.Edit

/-!
# Unpacking archives

An archive is unpacked into a directory entry by entry, each without the first component of its
path.  A path that leads elsewhere stops the unpacking; what was unpacked before stays.
-/

namespace StackControl.Archive

open FileTree (Edit)

/-- The names of an entry's path after its first component, which is dropped whatever it is.  There
are none to be had if one of the others is not an ordinary name. -/
def namesBelowTop? (path : Path) : Option (List Name) :=
  (path.components.drop 1).foldr
    (fun component names =>
      match component, names with
      | .name n, some names => some (n :: names)
      | .here, some names => some names
      | _, _ => none)
    (some [])

/-- A change of a file tree that can fail as unpacking does. -/
abbrev Unpacking := ExceptT UnpackFault (StateM FileTree)

/-- Makes a directory, unless it is there. -/
def placeDirectory (path : Path) : Edit Unit := do
  match ← outcomeOf (Edit.makeDirectory path) with
  | .ok () => return
  | .error fault =>
    match fault, ← outcomeOf (Edit.look (·.linkStat path)) with
    | .os e, .ok (_, .directory _) => unless e = .alreadyExists do throw fault
    | _, _ => throw fault

/-- Does something at a path, and once more if a file that stood there had to be taken away. -/
def replacing (path : Path) (act : Edit Unit) (missingIsFine : Bool) : Edit Unit := do
  match ← outcomeOf act with
  | .ok () => return
  | .error fault =>
    unless fault = .os .alreadyExists do throw fault
    match ← outcomeOf (Edit.removeFile path) with
    | .ok () => act
    | .error removal =>
      unless missingIsFine && removal = .os .notFound do throw removal
      act

/-- Sets the permissions that an entry states. -/
def placeMode (path : Path) (entry : Entry) : Edit Unit :=
  match entry.mode with
  | some mode => Edit.setMode path (mode &&& 0o777)
  | none => return

/-- Puts an entry at a path whose directory is there. -/
def place (entry : Entry) (path : Path) : Edit Unit := do
  match entry.kind, entry.target with
  | .note, _ => return
  | .directory, _ =>
    placeDirectory path
    placeMode path entry
  | .hardLink, some target => Edit.hardLink target path
  | .symbolicLink, some target => replacing path (Edit.link target path) false
  | .hardLink, none | .symbolicLink, none => throw .notText
  | .file, _ =>
    replacing path (Edit.create path entry.content) true
    unless entry.complete do throw .notText
    placeMode path entry

/-- Unpacks one entry below a directory. -/
def unpackEntry (target : Path) (entry : Entry) : Unpacking Unit := do
  match namesBelowTop? entry.path with
  | none => throw (.escapes (Utf8.decodeLossy entry.path))
  | some [] => return
  | some names =>
    let path := Path.join target ([Path.separator].intercalate names)
    (Edit.makeDirectories ((Path.parent? path).getD [])).adapt UnpackFault.fault
    (place entry path).adapt fun _ => UnpackFault.damaged

/-- Unpacks entries in order. -/
def unpackEntries (target : Path) : List Entry → Unpacking Unit
  | [] => return
  | entry :: rest => do
    unpackEntry target entry
    unpackEntries target rest

/-- Unpacks an archive into a directory, which is made when it is missing. -/
def unpack (contents : Contents) (target : Path) : Unpacking Unit := do
  (Edit.makeDirectories target).adapt UnpackFault.fault
  unpackEntries target contents.entries
  if contents.damaged then throw .damaged

end StackControl.Archive
