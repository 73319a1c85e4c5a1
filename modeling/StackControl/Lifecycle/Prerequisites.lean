import StackControl.Lifecycle.RevisionStamp

/-!
# Prerequisites of a stack

Before a group starts, its images and the compiled contracts have to be there.  Each step is taken
only when it is needed: the pull when the image is missing, the fetch of the contracts when their
directory holds nothing, the build when the tag is missing or a rebuild is asked for.  A published
revision needs no more than the pull.
-/

namespace StackControl.Lifecycle

/-- What had to be done. -/
structure PrerequisiteReport where
  pulled : Bool := false
  fetchedContracts : Bool := false
  injectedRevision : Bool := false
  built : Bool := false
deriving DecidableEq, Repr

/-- The place of the compiled contracts inside their image. -/
def contractsSource : String := "/opt/contracts"

/-- The build of the proxy's image. -/
def proxyBuild (settings : StackSettings) : Engine.Build where
  context := "."
  tag := settings.proxyImage
  buildArguments :=
    [ ("NEON_EVM_COMMIT", settings.evmCommit)
    , ("DOCKERHUB_ORG_NAME", settings.registryNamespace)
    , ("PROXY_REVISION", settings.revision) ]

/-- Pulls the contracts' image unless it is local or there: whether it was pulled. -/
def pullIfMissing (settings : StackSettings) : Flow Bool := do
  if settings.contractsImageIsLocal then
    return false
  if ← Flow.engine (.imageExists settings.contractsImage) then
    return false
  Flow.engine (.pull settings.contractsImage)
  return true

/-- Whether the directory of the contracts is missing or holds nothing. -/
def needsContracts (directory : String) : Flow Bool := do
  match ← Flow.files (.list (Utf8.encode directory)) with
  | .ok names => return names.isEmpty
  | .error (.os e) =>
    if e = .notFound then return true
    throw (.extractContracts directory (.fault (.os e)))
  | .error fault => throw (.extractContracts directory (.fault fault))

/-- What a fault while unpacking the contracts means. -/
def unpackError (directory : String) : Archive.UnpackFault → Error
  | .escapes entry => .unsafeArchiveEntry entry
  | fault => .extractContracts directory fault

/-- Fetches the contracts into their directory if it needs them: whether they were fetched. -/
def fetchIfNeeded (directory image : String) : Flow Bool := do
  unless ← needsContracts directory do
    return false
  let archive ← Flow.engine (.exportPath image contractsSource)
  Flow.demand (unpackError directory) (Flow.files (.unpack archive (Utf8.encode directory)))
  return true

/-- Builds the proxy's image from a stamped source file, which is restored whatever comes of the
build: whether a revision was stamped. -/
def buildStamped (template : String) (settings : StackSettings) : Flow Bool := do
  let stamp ← RevisionStamp.apply template settings.revision
  let result ← outcomeOf (Flow.engine (.build (proxyBuild settings)))
  RevisionStamp.restore stamp
  ExceptT.mk (pure result)
  return stamp.isSome

/-- Makes sure that everything the group needs is there. -/
def prepare (config : Config) (settings : StackSettings) (rebuild : Bool) :
    Flow PrerequisiteReport := do
  let pulled ← pullIfMissing settings
  unless settings.isLocal do
    return { pulled := pulled }
  let fetched ← fetchIfNeeded config.contractsDir settings.contractsImage
  let present ←
    if rebuild then pure false else Flow.engine (.imageExists settings.proxyImage)
  if present then
    return { pulled := pulled, fetchedContracts := fetched }
  let injected ← buildStamped config.revisionTemplate settings
  return {
    pulled := pulled
    fetchedContracts := fetched
    injectedRevision := injected
    built := true }

end StackControl.Lifecycle
