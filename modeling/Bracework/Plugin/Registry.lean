/-
Plugins — the registry.

For every stage the registry holds a list of references without repetition, in
the order in which they were added.  To add one that is there changes nothing,
and so does to remove one that is not.
-/
import Bracework.Plugin.Reference
import Bracework.Project.ConfigError

namespace Bracework

/-- The registered plugins of every stage. -/
structure Registry (m : Type → Type) where
  plugins : PerStage (PluginRef m) := {}

namespace Registry

variable {m : Type → Type}

def empty : Registry m := {}

/-- A list with a reference at its end, unless it has it already. -/
def add (p : PluginRef m) (plugins : List (PluginRef m)) : List (PluginRef m) :=
  if plugins.contains p then plugins else plugins ++ [p]

/-- A list without a reference. -/
def remove (p : PluginRef m) (plugins : List (PluginRef m)) : List (PluginRef m) :=
  plugins.filter (· != p)

/-- The registered plugins of a stage. -/
def get (r : Registry m) (s : Stage) : List (PluginRef m) := r.plugins.get s

def registerAt (r : Registry m) (s : Stage) (p : PluginRef m) : Registry m :=
  ⟨r.plugins.modify s (add p)⟩

def unregisterAt (r : Registry m) (s : Stage) (p : PluginRef m) : Registry m :=
  ⟨r.plugins.modify s (remove p)⟩

/-- The registry with the plugins of every stage removed. -/
def clear (_ : Registry m) : Registry m := .empty

/-- The number of registered plugins. -/
def size (r : Registry m) : Nat := r.plugins.flatten.length

/-! ## Stages by name -/

def register (r : Registry m) (stage : String) (p : PluginRef m) :
    Except ConfigError (Registry m) :=
  return r.registerAt (← Stage.named stage) p

def unregister (r : Registry m) (stage : String) (p : PluginRef m) :
    Except ConfigError (Registry m) :=
  return r.unregisterAt (← Stage.named stage) p

def list (r : Registry m) (stage : String) : Except ConfigError (List (PluginRef m)) :=
  return r.get (← Stage.named stage)

end Registry

end Bracework
