import StackControl.Configuration.Discovery
import StackControl.Configuration.Flags
import StackControl.Configuration.Variables

/-!
# Loading the configuration

Flags lie above variables of the environment, those above the configuration file, and that above the
defaults.  Flags that are not well formed say nothing at all, not even which file to use.  All
problems are gathered, and a configuration results only if there are none.
-/

namespace StackControl.Configuration

/-- What the configuration is loaded from, the command line apart. -/
structure Surroundings where
  environment : List (String × Bytes)
  tree : FileTree

/-- Loads the configuration, given the configuration flags. -/
def load (s : Surroundings) (flags : List Bytes) : Except LoadError Config :=
  let (usage, given) : List Problem × Flags.Given :=
    match Flags.parse flags with
    | .ok given => ([], given)
    | .error e => ([.arguments e], ⟨none, []⟩)
  let (files, fileLayers) :=
    discover s.tree (s.environment.lookup ·) (given.path.map Utf8.encode)
  let layers := given.layer :: Variables.layer s.environment :: fileLayers
  match usage ++ files, Layers.config? layers with
  | [], some config => .ok config
  | [], none => .error ⟨.merge, []⟩
  | first :: others, some _ => .error ⟨first, others⟩
  | first :: others, none => .error ⟨first, others ++ [.merge]⟩

end StackControl.Configuration
