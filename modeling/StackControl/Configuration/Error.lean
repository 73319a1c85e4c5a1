import StackControl.Arguments.Grammar

/-!
# Errors while loading configuration

Configuration is gathered from the command line, from files and from the environment.  Each source
can fail on its own, and the values gathered can be of the wrong type; all errors of a load are
reported together.
-/

namespace StackControl.Configuration

/-- One reason why configuration could not be loaded. -/
inductive Problem
  /-- The configuration flags are not well formed. -/
  | arguments (error : Arguments.UsageError)
  /-- A file could not be read or has no meaning. -/
  | file
  /-- A file extends itself, directly or through others. -/
  | cyclicExtension
  /-- A value has the wrong type. -/
  | merge
deriving DecidableEq, Repr

/-- The text of a problem. -/
def Problem.message : Problem → String
  | arguments _ => "the configuration flags are not well formed"
  | file => "a configuration file cannot be used"
  | cyclicExtension => "a configuration file extends itself"
  | merge => "a configuration value has the wrong type"

/-- All problems of a load, the first one apart. -/
structure LoadError where
  first : Problem
  others : List Problem
deriving DecidableEq, Repr

/-- The text of a load error. -/
def LoadError.message (e : LoadError) : String :=
  "; ".intercalate ((e.first :: e.others).map Problem.message)

end StackControl.Configuration
