import StackControl.FileTree.Edit

/-!
# Setting up and surveying file trees

A rehearsal starts from a prepared file tree, may change it between steps, and is judged by what
the tree holds afterwards.
-/

namespace StackControl.Rehearsal

open FileTree (Edit)

/-- Something to be put at a path. -/
inductive Item
  | file (content : Bytes)
  | directory
  | link (target : Path)

/-- Carries out a change of a tree, whether or not it succeeds. -/
def changed (edit : Edit Unit) (tree : FileTree) : FileTree :=
  (edit.run tree).2

/-- Puts something at a path; missing directories above it are made. -/
def placeAt (path : Path) (item : Item) : FileTree → FileTree :=
  changed do
    Edit.makeDirectories ((Path.parent? path).getD [])
    match item with
    | .file content => Edit.write path content
    | .directory => Edit.makeDirectories path
    | .link target => do
      let _ ← outcomeOf (Edit.removeFile path)
      Edit.link target path

/-- Takes away what stands at a path, with everything below it. -/
def removeAt (path : Path) : FileTree → FileTree :=
  changed do
    match ← Edit.look (·.linkStat path) with
    | (_, .directory _) => Edit.removeDirectories path
    | _ => Edit.removeFile path

/-- A change of the files of a rehearsal: paths are taken away, then things are put. -/
structure SceneChange where
  remove : List Path
  place : List (Path × Item)

/-- Applies a change of files. -/
def SceneChange.apply (change : SceneChange) (tree : FileTree) : FileTree :=
  let cleared := change.remove.foldl (fun tree path => removeAt path tree) tree
  change.place.foldl (fun tree (path, item) => placeAt path item tree) cleared

/-- What a survey shows of a node. -/
inductive Sight
  | directory (mode : Nat)
  | file (mode : Nat) (content : Bytes)
  | link (target : Path)

/-- Whether everything on the way to a location can be entered and listed. -/
def visible (tree : FileTree) (top loc : Location) : Bool :=
  (List.range loc.length).all fun n =>
    n < top.length ||
      match tree.node? (loc.take n) with
      | some (.directory mode) => FileTree.readable mode && FileTree.searchable mode
      | _ => false

/-- What a survey shows of a node; a file that cannot be read shows no content. -/
def sightOf (tree : FileTree) : Node → Sight
  | .directory mode => .directory mode
  | .link target => .link target
  | .file i =>
    match tree.bodies[i]? with
    | some body => .file body.mode (if FileTree.readable body.mode then body.content else [])
    | none => .file 0 []

/-- The order of paths by their bytes. -/
def pathLe : Bytes → Bytes → Bool
  | [], _ => true
  | _ :: _, [] => false
  | a :: as, b :: bs => a < b || (a == b && pathLe as bs)

/-- Everything below the working directory, sorted by path. -/
def survey (tree : FileTree) : List (Path × Sight) :=
  let top := tree.workingDirectory
  let rows := tree.nodes.filterMap fun (loc, node) =>
    if top.isPrefixOf loc && loc.length > top.length && visible tree top loc then
      some ([Path.separator].intercalate (loc.drop top.length), sightOf tree node)
    else none
  rows.mergeSort fun a b => pathLe a.1 b.1

end StackControl.Rehearsal
