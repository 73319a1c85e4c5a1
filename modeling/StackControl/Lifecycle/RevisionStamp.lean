import StackControl.Lifecycle.Basic
import StackControl.Text.Search

/-!
# Revision stamps

While an image is built, the placeholder in a source file holds the revision.  Stamping the file
answers what it held before, and restoring writes that back; nothing is done to a file that is
missing or has no placeholder.
-/

namespace StackControl.Lifecycle

/-- The text that a revision takes the place of. -/
def revisionPlaceholder : String := "NEON_PROXY_REVISION_TO_BE_REPLACED"

/-- A text with every placeholder replaced by the revision. -/
def stampText (text revision : String) : String :=
  String.ofList
    (Text.replaceAll revisionPlaceholder.toList revision.toList text.toList)

/-- Whether a text has a placeholder. -/
def hasPlaceholder (text : String) : Bool :=
  Text.contains revisionPlaceholder.toList text.toList

/-- A file that was stamped, and what it held. -/
structure RevisionStamp where
  path : String
  before : String
deriving DecidableEq

namespace RevisionStamp

/-- Stamps a revision into a file. -/
def apply (template revision : String) : Flow (Option RevisionStamp) := do
  let path := Utf8.encode template
  match ← Flow.files (.readText path) with
  | .error (.os e) =>
    if e = .notFound then return none
    throw (.revisionTemplate template (.os e))
  | .error fault => throw (.revisionTemplate template fault)
  | .ok text =>
    unless hasPlaceholder text do
      return none
    Flow.demand (.revisionTemplate template)
      (Flow.files (.write path (Utf8.encode (stampText text revision))))
    return some ⟨template, text⟩

/-- Writes back what a stamped file held; that this can fail is passed over. -/
def restore : Option RevisionStamp → Activity Unit
  | none => return
  | some stamp => do
    let _ ← Flow.files (.write (Utf8.encode stamp.path) (Utf8.encode stamp.before))
    return

end RevisionStamp

end StackControl.Lifecycle
