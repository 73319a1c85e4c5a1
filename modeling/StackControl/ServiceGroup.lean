import StackControl.Config
import StackControl.FileTree.Path
import StackControl.Settings

/-!
# The service group

A stack is a group of services under one compose project.  The base definition is always
applied; a local revision adds an override after it.  The long-running services are reached at
endpoints, in dependency order.
-/

namespace StackControl

/-- The part a service plays in the group. -/
inductive ServiceRole
  /-- A long-running service that the primary one depends on. -/
  | dependency
  | primary
  /-- A job that exits when its work is done. -/
  | job
deriving DecidableEq, Repr

/-- A service and the port it listens on; the primary one uses the configured port. -/
structure Service where
  name : String
  role : ServiceRole
  port : Option UInt16
deriving DecidableEq, Repr

namespace Service

/-- Whether a service keeps running once the group is up. -/
def isLongRunning (service : Service) : Bool :=
  service.role != .job

/-- The service that answers requests and that commands are forwarded into. -/
def primaryName : String := "proxy"

/-- The services, in dependency order. -/
def all : List Service :=
  [ ⟨"solana", .dependency, some 8899⟩
  , ⟨primaryName, .primary, none⟩
  , ⟨"faucet", .dependency, some 3333⟩
  , ⟨"test-accounts", .job, none⟩ ]

/-- The port of a service, given the configured one. -/
def portFor? (service : Service) (rpcPort : UInt16) : Option UInt16 :=
  if service.role == .primary then some rpcPort else service.port

end Service

/-- A service and a port on the network of the group. -/
structure Endpoint where
  service : String
  port : UInt16
deriving DecidableEq, Repr

namespace Endpoint

/-- The service and the port, with a colon between them. -/
def display (e : Endpoint) : String :=
  e.service ++ ":" ++ toString e.port.toNat

/-- The endpoints of the long-running services, in dependency order. -/
def longRunning (rpcPort : UInt16) : List Endpoint :=
  (Service.all.filter Service.isLongRunning).filterMap fun service =>
    (service.portFor? rpcPort).map fun port => ⟨service.name, port⟩

end Endpoint

/-- A compose project, its definitions and the variables they use. -/
structure ServiceGroup where
  project : String
  base : String
  overlay : Option String
  environment : List (String × String)
deriving DecidableEq, Repr

namespace ServiceGroup

/-- The definition that every group has. -/
def baseFile : String := "docker-compose-test.yml"

/-- The definition added for local revisions. -/
def overrideFile : String := "docker-compose-local.yml"

/-- The group of the resolved settings. -/
def ofSettings (config : Config) (settings : StackSettings) : ServiceGroup where
  project := settings.project
  base := Path.joinText config.composeDir baseFile
  overlay := if settings.isLocal then some (Path.joinText config.composeDir overrideFile) else none
  environment := settings.composeEnvironment

/-- The compose definitions in the order in which they apply. -/
def composeFiles (group : ServiceGroup) : List String :=
  group.base :: group.overlay.toList

end ServiceGroup

end StackControl
