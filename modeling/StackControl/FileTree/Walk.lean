import StackControl.FileTree.Basic

/-!
# Following paths

The operating system follows a path name by name, through directories that may be searched and
through symbolic links.  It ends at a node, or at a name that is missing in an existing
directory, where something could be created.
-/

namespace StackControl

/-- Where a path leads. -/
inductive Place
  | present (loc : Location) (node : Node)
  /-- Only the last name is missing. -/
  | absent (loc : Location)
deriving DecidableEq, Repr

namespace FileTree

/-- The longest name that a directory can hold. -/
def longestName : Nat := 255

/-- The length at which a path is refused. -/
def pathLimit : Nat := 4096

/-- The number of symbolic links that one path may pass. -/
def linkLimit : Nat := 40

/-- Takes the steps of a path from a directory.  `onLink` continues after a symbolic link, with
the steps of its target put before the remaining ones.  At a link in the last place the walk stops
unless `follow` says otherwise or a directory is demanded. -/
def walkSteps
    (tree : FileTree)
    (onLink : Location → List Name → Bool → Except Errno Place)
    (follow : Bool) : Location → List Name → Bool → Except Errno Place
  | loc, [], _ =>
    match tree.node? loc with
    | some node => .ok (.present loc node)
    | none => .error .notFound
  | loc, step :: rest, directory =>
    match tree.node? loc with
    | some (.directory mode) =>
      if !searchable mode then .error .accessDenied
      else if step == Path.dot then walkSteps tree onLink follow loc rest directory
      else if step == Path.dotDot then walkSteps tree onLink follow loc.dropLast rest directory
      else if step.length > longestName then .error .nameTooLong
      else
        let next := loc ++ [step]
        match tree.node? next with
        | none => if rest.isEmpty then .ok (.absent next) else .error .notFound
        | some (.directory _) => walkSteps tree onLink follow next rest directory
        | some (.file body) =>
          if !rest.isEmpty || directory then .error .notDirectory
          else .ok (.present next (.file body))
        | some (.link target) =>
          if rest.isEmpty && !follow && !directory then .ok (.present next (.link target))
          else
            let route := Path.route target
            onLink (if route.absolute then [] else loc) (route.steps ++ rest)
              (directory || rest.isEmpty && route.directory)
    | some _ => .error .notDirectory
    | none => .error .notFound

/-- Takes the steps of a path, passing at most the given number of symbolic links. -/
def walk (tree : FileTree) (follow : Bool) :
    Nat → Location → List Name → Bool → Except Errno Place
  | 0 => tree.walkSteps (fun _ _ _ => .error .tooManyLinks) follow
  | links + 1 => tree.walkSteps (tree.walk follow links) follow

/-- The faults of a path itself, before any step is taken. -/
def checkPath (path : Path) : Except Fault Unit :=
  if path.contains 0 then .error .nulByte
  else if path.isEmpty then .error (.os .notFound)
  else if path.length ≥ pathLimit then .error (.os .nameTooLong)
  else .ok ()

/-- Where a path leads.  `follow` says whether a symbolic link in the last place is followed, and
`directory` whether the path has to name a directory. -/
def locateRoute
    (tree : FileTree) (follow : Bool) (route : Path.Route) (directory : Bool) :
    Except Fault Place :=
  match tree.walk follow linkLimit (if route.absolute then [] else tree.workingDirectory)
      route.steps directory with
  | .ok place => .ok place
  | .error e => .error (.os e)

/-- Where a path leads; a path that ends in a separator has to name a directory. -/
def locate (tree : FileTree) (follow : Bool) (path : Path) : Except Fault Place := do
  checkPath path
  tree.locateRoute follow path.route path.route.directory

/-- What a path names, with symbolic links followed. -/
def stat (tree : FileTree) (path : Path) : Except Fault (Location × Node) := do
  match ← tree.locate true path with
  | .present loc node => .ok (loc, node)
  | .absent _ => .error (.os .notFound)

/-- What a path names, which may be a symbolic link. -/
def linkStat (tree : FileTree) (path : Path) : Except Fault (Location × Node) := do
  match ← tree.locate false path with
  | .present loc node => .ok (loc, node)
  | .absent _ => .error (.os .notFound)

/-- Whether a path names anything, with symbolic links followed. -/
def pathExists (tree : FileTree) (path : Path) : Bool :=
  match tree.stat path with
  | .ok _ => true
  | .error _ => false

/-- Whether a path names a directory, with symbolic links followed. -/
def isDirectory (tree : FileTree) (path : Path) : Bool :=
  match tree.stat path with
  | .ok (_, .directory _) => true
  | _ => false

/-- Whether a path names a regular file, with symbolic links followed. -/
def isFile (tree : FileTree) (path : Path) : Bool :=
  match tree.stat path with
  | .ok (_, .file _) => true
  | _ => false

end FileTree

end StackControl
