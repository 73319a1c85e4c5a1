import StackControl.Configuration.Error
import StackControl.Configuration.Layers
import StackControl.Configuration.Toml.Document
import StackControl.FileTree.Edit

/-!
# Configuration files

At most one file is used, with the files that it extends.  A file named on the command line must be
usable.  Otherwise the places where a file may lie are tried in order, and the first file that can be
used is taken; what is wrong with the others is forgotten then.
-/

namespace StackControl.Configuration

/-! ## Reading a file -/

/-- What follows the last dot of a name; a dot in front begins a name and no extension. -/
def extension? (name : Name) : Option Bytes :=
  match Text.splitAt (· == byteOf '.') name with
  | [] | [_] => none
  | [first, last] => if first.isEmpty then none else some last
  | _ :: _ :: parts => parts.getLast?

/-- The extensions of formats that are not supported. -/
def foreignExtensions : List String :=
  ["json", "json5", "yaml", "yml"]

/-- Whether the name of a file promises a format that is not supported. -/
def isForeign (name : Name) : Bool :=
  match extension? name with
  | none => false
  | some bytes =>
    foreignExtensions.contains (String.ofList ((Utf8.decodeLossy bytes).toList.map Char.toLower))

/-- What the file at a location says. -/
def readLayer (tree : FileTree) (loc : Location) : Except Problem Layer :=
  if isForeign (loc.getLastD []) then .error .file
  else
    match tree.readText loc.toPath with
    | .error _ => .error .file
    | .ok text =>
      match Toml.parse? text with
      | some layer => .ok layer
      | none => .error .file

/-- The field in which a file names the file that it extends. -/
def extendsField : String := "extends"

/-- What a file says and, below it, the files that it extends; those are looked for from its own
directory.  Every file counts once, so the number bounds how many can follow. -/
def readLayers (tree : FileTree) : Nat → List Location → Path → Except Problem Layers
  | 0, _, _ => .error .cyclicExtension
  | files + 1, seen, path =>
    match tree.stat path with
    | .ok (loc, .file _) => do
      if seen.contains loc then .error .cyclicExtension
      else
        let layer ← readLayer tree loc
        match layer.lookup extendsField with
        | none => return [layer]
        | some (.text base) =>
          if base.isEmpty then .error .file
          else
            let next := Path.join (Location.toPath loc.dropLast) (Utf8.encode base)
            return layer :: (← readLayers tree files (loc :: seen) next)
        | some _ => .error .file
    | _ => .error .file

/-- What a configuration file says, with the files that it extends. -/
def readFile (tree : FileTree) (path : Path) : Except Problem Layers :=
  readLayers tree (tree.nodes.length + 1) [] path

/-! ## Finding a file -/

/-- The name of the directory for configuration of the tool. -/
def directoryName : Path := Utf8.encode "stackctl"

/-- The name of a file inside that directory. -/
def fileName : Path := Utf8.encode "config.toml"

/-- The name of a file outside that directory. -/
def dottedName : Path := Utf8.encode ".stackctl.toml"

/-- The places of a file below a directory for configuration of all programs. -/
def placesBelow (base : Path) : List Path :=
  [Path.join (Path.join base directoryName) fileName, Path.join base dottedName]

/-- The places where a configuration file may lie, given the environment. -/
def places (valueOf? : String → Option Bytes) : List Path :=
  let named := (valueOf? "STACKCTL_CONFIG_PATH").toList.filter (!·.isEmpty)
  let shared := (Text.splitAt (· == byteOf ':') ((valueOf? "XDG_CONFIG_DIRS").getD [])).filter
    (!·.isEmpty)
  let home := (valueOf? "HOME").toList
  let bases := (valueOf? "XDG_CONFIG_HOME").toList ++ shared ++
    home.map (Path.join · (Utf8.encode ".config"))
  (named ++ bases.flatMap placesBelow ++ home.map (Path.join · dottedName) ++
    [Path.join Path.dot dottedName]).eraseDups

/-- The first file that can be used, or what is wrong with all that exist. -/
def firstUsable (tree : FileTree) : List Path → Except (List Problem) Layers
  | [] => .error []
  | path :: rest =>
    if tree.isFile path then
      match readFile tree path with
      | .ok layers => .ok layers
      | .error problem => (firstUsable tree rest).mapError (problem :: ·)
    else firstUsable tree rest

/-- Finds the configuration file: what is wrong with the one that is required and, where none can be
used, with the others, and what the file says. -/
def discover (tree : FileTree) (valueOf? : String → Option Bytes) (required : Option Path) :
    List Problem × Layers :=
  let optional (paths : List Path) : List Problem × Layers :=
    match firstUsable tree paths with
    | .ok layers => ([], layers)
    | .error problems => (problems, [])
  match required with
  | none => optional (places valueOf?)
  | some path =>
    match readFile tree path with
    | .ok layers => ([], layers)
    | .error problem =>
      let (problems, layers) := optional ((places valueOf?).filter (· != path))
      (problem :: problems, layers)

end StackControl.Configuration
