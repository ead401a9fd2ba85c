/-
Compiling — options.

A caller states options; resolving them against the built-in set and the
registry lists the plugins that will run.  Resolved options are a value: they
can be kept, changed, compared and used for any number of compiles.
-/
import Bracework.Plugin.Selection

namespace Bracework

/-- What a caller asks for; the plugins are for one compile only. -/
structure CompileOptions (m : Type → Type) where
  isProduction : Bool := false
  plugins : PerStage (PluginRef m) := {}
  moduleName : Option String := none
  strictMode : Bool := false
  metadata : Named Json := []

/-- Options together with the plugins that they stand for. -/
structure ResolvedOptions (m : Type → Type) where
  isProduction : Bool := false
  plugins : PerStage (SelectedPlugin m) := {}
  moduleName : Option String := none
  strictMode : Bool := false
  metadata : Named Json := []

variable {m : Type → Type}

/-- Lists the plugins that take part. -/
def CompileOptions.resolve (o : CompileOptions m) (defaults : DefaultSet m)
    (registry : Registry m) : ResolvedOptions m where
  isProduction := o.isProduction
  plugins := .ofFn fun s =>
    selectPlugins (defaults.plugins s o.isProduction) (registry.get s) (o.plugins.get s)
  moduleName := o.moduleName
  strictMode := o.strictMode
  metadata := o.metadata

namespace ResolvedOptions

/-- What plugins are told. -/
def context (o : ResolvedOptions m) : PluginContext :=
  ⟨o.moduleName, o.isProduction, o.strictMode, o.metadata⟩

/-- Whether two lists give the same names the same values; their order does not count. -/
def sameMetadata (a b : Named Json) : Bool :=
  a.length == b.length && a.all fun (key, value) =>
    match b.lookup key with
    | some other => value.same other
    | none => false

/-- Equality: the same settings and the same plugins for the same reasons. -/
def same (a b : ResolvedOptions m) : Bool :=
  a.isProduction == b.isProduction && a.plugins.ast == b.plugins.ast &&
    a.moduleName == b.moduleName && a.strictMode == b.strictMode &&
    sameMetadata a.metadata b.metadata

end ResolvedOptions

end Bracework
