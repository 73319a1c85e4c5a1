import StackControl.Archive.Unpack
import StackControl.Machine.Call

/-!
# What file requests do

Each request to work on files is an operation on the file tree, which answers it and leaves a tree.
-/

namespace StackControl.Machine

/-- The answer and the tree after a change. -/
def afterEdit {ε α : Type} (change : ExceptT ε (StateM FileTree) α) (tree : FileTree) :
    Except ε α × FileTree :=
  change.run tree

/-- Answers a file request. -/
def FileRequest.perform : (request : FileRequest) → FileTree → request.Answer × FileTree
  | .list path, tree => (tree.list path, tree)
  | .readText path, tree => (tree.readText path, tree)
  | .write path content, tree => afterEdit (FileTree.Edit.write path content) tree
  | .makeDirectories path, tree => afterEdit (FileTree.Edit.makeDirectories path) tree
  | .removeDirectories path, tree => afterEdit (FileTree.Edit.removeDirectories path) tree
  | .unpack archive target, tree =>
    afterEdit (Archive.unpack (Archive.read archive) target) tree

end StackControl.Machine
