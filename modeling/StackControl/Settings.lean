/-!
# Stack settings

Five settings name what a stack is made of.  Each is resolved on its own: an explicit value wins
over the environment variable of the same setting, and that over a built-in default.  The resolved
values are exported again under the names of the variables, so that compose definitions act on
the same values.
-/

namespace StackControl

/-- The settings of a stack. -/
inductive StackKey
  | revision
  | registryNamespace
  | project
  | evmCommit
  | faucetCommit
deriving DecidableEq, Repr

namespace StackKey

/-- Every key, in the order in which the variables are exported. -/
def all : List StackKey :=
  [.revision, .registryNamespace, .project, .evmCommit, .faucetCommit]

theorem mem_all (key : StackKey) : key ∈ all := by
  cases key <;> decide

/-- The environment variable of a setting. -/
def variableName : StackKey → String
  | .revision => "REVISION"
  | .registryNamespace => "DOCKERHUB_ORG_NAME"
  | .project => "COMPOSE_PROJECT_NAME"
  | .evmCommit => "NEON_EVM_COMMIT"
  | .faucetCommit => "FAUCET_COMMIT"

/-- The value of a setting that is given nowhere. -/
def default : StackKey → String
  | .revision | .evmCommit | .faucetCommit => "latest"
  | .registryNamespace => "neonlabsorg"
  | .project => "neon-proxy"

/-- The name of a setting on the command line, without dashes. -/
def optionName : StackKey → String
  | .revision => "revision"
  | .registryNamespace => "namespace"
  | .project => "project"
  | .evmCommit => "evm-commit"
  | .faucetCommit => "faucet-commit"

end StackKey

/-- The text values of the environment, by variable. -/
abbrev Environment := String → Option String

/-- The values given explicitly. -/
structure ExplicitSettings where
  value : StackKey → Option String

namespace ExplicitSettings

/-- Nothing is given. -/
def none : ExplicitSettings :=
  ⟨fun _ => .none⟩

/-- Gives a value for a key; no value leaves the key as it is. -/
def set (explicit : ExplicitSettings) (key : StackKey) : Option String → ExplicitSettings
  | .none => explicit
  | .some value => ⟨fun k => if k = key then .some value else explicit.value k⟩

end ExplicitSettings

/-- The settings in force. -/
structure StackSettings where
  value : StackKey → String

namespace StackSettings

/-- The revision that is built from the working directory. -/
def localRevision : String := "local"

/-- The value of a variable that is set and not empty. -/
def nonEmpty? : Option String → Option String
  | some value => if value.isEmpty then none else some value
  | none => none

/-- Explicit values win over the environment, and that over the defaults.  A variable that holds
the empty text counts as unset; an explicit empty text does not. -/
def resolve (explicit : ExplicitSettings) (environment : Environment) : StackSettings where
  value key :=
    match explicit.value key with
    | some value => value
    | none => (nonEmpty? (environment key.variableName)).getD key.default

/-- The settings when nothing is given. -/
def defaults : StackSettings :=
  resolve .none fun _ => none

variable (settings : StackSettings)

/-- The revision of the proxy. -/
def revision : String := settings.value .revision

/-- The registry namespace of every image. -/
def registryNamespace : String := settings.value .registryNamespace

/-- The compose project. -/
def project : String := settings.value .project

/-- The revision of the image that the contracts come from. -/
def evmCommit : String := settings.value .evmCommit

/-- The revision of the faucet. -/
def faucetCommit : String := settings.value .faucetCommit

/-- Whether the proxy is built from the working directory. -/
def isLocal : Bool := settings.revision == localRevision

/-- Whether the image that the contracts come from is a local one. -/
def contractsImageIsLocal : Bool := settings.evmCommit == localRevision

/-- The image of the proxy. -/
def proxyImage : String :=
  settings.registryNamespace ++ "/neon-proxy.py:" ++ settings.revision

/-- The image that the contracts come from. -/
def contractsImage : String :=
  settings.registryNamespace ++ "/evm_loader:" ++ settings.evmCommit

/-- The variables exported to compose, one for each setting. -/
def composeEnvironment : List (String × String) :=
  StackKey.all.map fun key => (key.variableName, settings.value key)

/-- Whether two resolutions agree on every key. -/
instance : BEq StackSettings where
  beq a b := StackKey.all.all fun key => a.value key == b.value key

end StackSettings

end StackControl
