import StackControl.FileTree.Walk

/-!
# Execution contexts

The same tool runs on the controlling host and inside the primary container.  The container runtime
leaves a marker file in every container; that the marker exists is all that tells the two apart.
-/

namespace StackControl

/-- Where a run takes place. -/
inductive ExecutionContext
  /-- On the controlling host, where the engine is driven. -/
  | host
  /-- Inside the primary container. -/
  | managed
deriving DecidableEq, Repr

namespace ExecutionContext

/-- The words for an execution context. -/
def display : ExecutionContext → String
  | host => "host"
  | managed => "managed runtime"

/-- The marker that the container runtime leaves. -/
def containerMarker : String := "/.dockerenv"

/-- The context of a run that sees a file tree; links are followed to the marker. -/
def detect (tree : FileTree) (marker : Path) : ExecutionContext :=
  if tree.pathExists marker then managed else host

end ExecutionContext

end StackControl
