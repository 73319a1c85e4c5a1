import StackControl.FileTree.Walk
import StackControl.Procedure

/-!
# Reading and changing file trees

Each operation answers a value or a fault.  Those that change the tree leave a tree in either case:
making a directory with its missing ancestors, for one, can fail after some ancestors were made.
-/

namespace StackControl

namespace FileTree

/-- The content of the file that a path names. -/
def read (tree : FileTree) (path : Path) : Except Fault Bytes := do
  match ← tree.stat path with
  | (_, .file i) =>
    match tree.bodies[i]? with
    | some body => if readable body.mode then .ok body.content else .error (.os .accessDenied)
    | none => .error (.os .notFound)
  | (_, .directory mode) =>
    if readable mode then .error (.os .isDirectory) else .error (.os .accessDenied)
  | (_, .link _) => .error (.os .tooManyLinks)

/-- The text of the file that a path names. -/
def readText (tree : FileTree) (path : Path) : Except Fault String := do
  match Utf8.decode? (← tree.read path) with
  | some text => .ok text
  | none => .error .notText

/-- The names in the directory that a path names. -/
def list (tree : FileTree) (path : Path) : Except Fault (List Name) := do
  match ← tree.stat path with
  | (loc, .directory mode) =>
    if readable mode then .ok (tree.names loc) else .error (.os .accessDenied)
  | _ => .error (.os .notDirectory)

/-- Whether names may be added to and taken from a directory. -/
def mayEdit (tree : FileTree) (loc : Location) : Bool :=
  match tree.node? loc with
  | some (.directory mode) => writable mode && searchable mode
  | _ => false

/-- A change of a file tree that can fail. -/
abbrev Edit := ExceptT Fault (StateM FileTree)

namespace Edit

/-- Fails with an error of the operating system. -/
def fail {α : Type} (e : Errno) : Edit α :=
  throw (.os e)

/-- Reads something from the tree. -/
def look {α : Type} (f : FileTree → Except Fault α) : Edit α := do
  match f (← get) with
  | .ok a => return a
  | .error e => throw e

/-- Demands that names may be added to and taken from the directory above a location. -/
def demandEdit (loc : Location) : Edit Unit := do
  unless (← get).mayEdit loc.dropLast do
    fail .accessDenied

/-- A path that ends in a separator cannot name a file that is to be opened for writing. -/
def refuseDirectoryPath (path : Path) : Edit Unit := do
  look fun _ => checkPath path
  let route := path.route
  if route.directory then
    let _ ← look fun tree =>
      tree.locateRoute true { route with steps := route.steps.dropLast } true
    fail .isDirectory

/-- Writes a file, which is made when it is missing. -/
def write (path : Path) (content : Bytes) : Edit Unit := do
  refuseDirectoryPath path
  match ← look (·.locate true path) with
  | .present _ (.file i) =>
    match (← get).bodies[i]? with
    | some body =>
      if writable body.mode then modify (·.setBody i { body with content := content })
      else fail .accessDenied
    | none => fail .notFound
  | .present _ (.directory _) => fail .isDirectory
  | .present _ (.link _) => fail .tooManyLinks
  | .absent loc =>
    demandEdit loc
    modify (·.putFile loc ⟨fileMode, content⟩)

/-- Makes a file that must not exist. -/
def create (path : Path) (content : Bytes) : Edit Unit := do
  refuseDirectoryPath path
  match ← look (·.locate false path) with
  | .present _ _ => fail .alreadyExists
  | .absent loc =>
    demandEdit loc
    modify (·.putFile loc ⟨fileMode, content⟩)

/-- Makes a directory that must not exist. -/
def makeDirectory (path : Path) : Edit Unit := do
  look fun _ => checkPath path
  match ← look (·.locateRoute false path.route false) with
  | .present _ _ => fail .alreadyExists
  | .absent loc =>
    demandEdit loc
    modify (·.put loc (.directory directoryMode))

/-- Makes the first of the given paths a directory; each later path is the parent of the one
before it and is made first when it is missing.  What already leads to a directory is left. -/
def makeAlong : List Path → Edit Unit
  | [] => fail .notFound
  | path :: ancestors => do
    if path.isEmpty then
      return
    let settle : Fault → Edit Unit := fun e => do
      unless (← get).isDirectory path do
        throw e
    match ← outcomeOf (makeDirectory path) with
    | .ok _ => return
    | .error (.os e) =>
      if e = .notFound then
        makeAlong ancestors
        tryCatch (makeDirectory path) settle
      else settle (.os e)
    | .error e => settle e

/-- Makes a directory and its missing ancestors. -/
def makeDirectories (path : Path) : Edit Unit :=
  makeAlong (path :: Path.above path.components)

/-- Takes away a file or a symbolic link. -/
def removeFile (path : Path) : Edit Unit := do
  match ← look (·.locate false path) with
  | .present _ (.directory _) => fail .isDirectory
  | .present loc _ =>
    demandEdit loc
    modify (·.drop loc)
  | .absent _ => fail .notFound

/-- Makes a symbolic link, whose target need not exist. -/
def link (target path : Path) : Edit Unit := do
  look fun _ => checkPath target
  match ← look (·.locate false path) with
  | .present _ _ => fail .alreadyExists
  | .absent loc =>
    demandEdit loc
    modify (·.put loc (.link target))

/-- Makes `path` one more name of what `source` names, which must not be a directory. -/
def hardLink (source path : Path) : Edit Unit := do
  match ← look (·.locate false source) with
  | .absent _ => fail .notFound
  | .present _ node =>
    match ← look (·.locate false path) with
    | .present _ _ => fail .alreadyExists
    | .absent loc =>
      demandEdit loc
      match node with
      | .directory _ => fail .notPermitted
      | node => modify (·.put loc node)

/-- Sets the permissions of what a path names. -/
def setMode (path : Path) (mode : Nat) : Edit Unit := do
  match ← look (·.stat path) with
  | (loc, .directory _) => modify (·.put loc (.directory mode))
  | (_, .file i) =>
    match (← get).bodies[i]? with
    | some body => modify (·.setBody i { body with mode := mode })
    | none => fail .notFound
  | (_, .link _) => fail .tooManyLinks

/-- Whether everything below a location can be listed and taken away. -/
def clearable (tree : FileTree) (top : Location) : Bool :=
  tree.nodes.all fun (loc, node) =>
    match node with
    | .directory mode =>
      !within top loc ||
        readable mode && ((tree.names loc).isEmpty || writable mode && searchable mode)
    | _ => true

/-- The tree without everything below a location. -/
def cleared (tree : FileTree) (top : Location) : FileTree :=
  { tree with nodes := tree.nodes.filter fun (loc, _) => !(within top loc) || loc == top }

/-- Takes away a directory that holds nothing.  A symbolic link is none, even before a separator. -/
def removeDirectory (path : Path) : Edit Unit := do
  match ← look (·.locateRoute false path.route false) with
  | .absent _ => fail .notFound
  | .present loc node =>
    match path.route.steps.getLast? with
    | none => fail .busy
    | some step =>
      if step == Path.dot then fail .invalidArgument
      if step == Path.dotDot then fail .notEmpty
      demandEdit loc
      match node with
      | .directory _ =>
        unless ((← get).names loc).isEmpty do fail .notEmpty
        modify (·.drop loc)
      | _ => fail .notDirectory

/-- Takes away a directory and everything below it.  A symbolic link is taken away itself.  The way
to the directory may lead through what it holds, and is then missing in the end. -/
def removeDirectories (path : Path) : Edit Unit := do
  match ← look (·.linkStat path) with
  | (loc, .link _) =>
    demandEdit loc
    modify (·.drop loc)
  | (_, .file _) => fail .notDirectory
  | (top, .directory _) =>
    unless clearable (← get) top do
      fail .accessDenied
    modify (cleared · top)
    match ← outcomeOf (removeDirectory path) with
    | .ok () => return
    | .error fault => unless fault = .os .notFound do throw fault

end Edit

end FileTree

end StackControl
