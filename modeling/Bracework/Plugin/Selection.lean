/-
Plugins — which plugins take part in a compile.

The built-in set has an entry per place: a plugin for both modes, one for debug
mode only, or a pair of which each mode takes its own.  A compile runs the
active entries of the built-in set, then what is registered, then what the
caller adds for this one compile; of the latter a plugin given twice counts once.
-/
import Bracework.Plugin.Registry

namespace Bracework

variable {m : Type → Type}

/-! ## The built-in set -/

/-- An entry of the built-in set. -/
inductive DefaultEntry (m : Type → Type) where
  | always (plugin : PluginRef m)
  | debugOnly (plugin : PluginRef m)
  | pair (debug production : PluginRef m)

namespace DefaultEntry

/-- The plugin that an entry stands for in a mode. -/
def active? (isProduction : Bool) : DefaultEntry m → Option (PluginRef m)
  | .always p => some p
  | .debugOnly p => if isProduction then none else some p
  | .pair debug production => some (if isProduction then production else debug)

/-- The plugins that an entry mentions. -/
def plugins : DefaultEntry m → List (PluginRef m)
  | .always p => [p]
  | .debugOnly p => [p]
  | .pair debug production => [debug, production]

/-- Whether the mode makes a difference to an entry. -/
def dependsOnMode : DefaultEntry m → Bool
  | .always _ => false
  | .debugOnly _ => true
  | .pair .. => true

end DefaultEntry

/-- The entries of every stage. -/
abbrev DefaultSet (m : Type → Type) : Type := PerStage (DefaultEntry m)

namespace DefaultSet

/-- The plugins of a stage that are active in a mode. -/
def plugins (d : DefaultSet m) (s : Stage) (isProduction : Bool) : List (PluginRef m) :=
  (d.get s).filterMap (·.active? isProduction)

/-- The entries of a stage that depend on the mode. -/
def modeEntries (d : DefaultSet m) (s : Stage) : List (DefaultEntry m) :=
  (d.get s).filter (·.dependsOnMode)

/-- The plugins that a stage mentions. -/
def mentioned (d : DefaultSet m) (s : Stage) : List (PluginRef m) :=
  (d.get s).flatMap (·.plugins)

end DefaultSet

/-! ## Selected plugins -/

/-- Why a plugin takes part. -/
inductive PluginSource where
  | builtin
  | registered
  | adHoc
deriving DecidableEq, Repr

def PluginSource.name : PluginSource → String
  | .builtin => "built-in"
  | .registered => "registered"
  | .adHoc => "ad hoc"

/-- A plugin that takes part in a compile. -/
structure SelectedPlugin (m : Type → Type) where
  plugin : PluginRef m
  source : PluginSource

instance : BEq (SelectedPlugin m) := ⟨fun a b => a.plugin == b.plugin && a.source == b.source⟩

/-- The first occurrences in a list. -/
def firstOccurrences (plugins : List (PluginRef m)) : List (PluginRef m) :=
  plugins.foldl (fun kept p => Registry.add p kept) []

/-- The plugins of one stage for one compile. -/
def selectPlugins (defaults registered adHoc : List (PluginRef m)) : List (SelectedPlugin m) :=
  defaults.map (⟨·, .builtin⟩) ++ registered.map (⟨·, .registered⟩) ++
    (firstOccurrences adHoc).map (⟨·, .adHoc⟩)

end Bracework
