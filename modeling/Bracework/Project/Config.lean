/-
Project files — the configuration of a project.

A configuration has a section on how to compile, metadata that is passed on as
it is, and the optional plugins to register for every stage.  All three may be
missing; the section on compiling knows its keys and refuses others, and what
else stands in the file does not count.
-/
import Bracework.Compile.Options
import Bracework.Plugin.Catalogue
import Bracework.Toml.Reader

namespace Bracework

/-- How to compile. -/
structure CompileSection where
  production : Bool := false
  moduleName : Option String := none
  strictMode : Bool := false
deriving DecidableEq, Repr

/-- The configuration of a project. -/
structure Config where
  compile : CompileSection := {}
  metadata : Named Json := []
  plugins : Named (List String) := []

/-! ## From the table of a document -/

/-- A setting that may be missing, and must have its type if it is there. -/
def setting? {α : Type} (entries : List (String × Toml.Value)) (key : String)
    (read : Toml.Value → Option α) : Option (Option α) :=
  match entries.lookup key with
  | none => some none
  | some v => (read v).map some

namespace CompileSection

/-- The keys of the section. -/
def keys : List String := ["production", "module-name", "strict-mode"]

def ofEntries? (entries : List (String × Toml.Value)) : Option CompileSection := do
  if entries.all fun (key, _) => keys.contains key then
    let production ← setting? entries "production" Toml.Value.boolean?
    let moduleName ← setting? entries "module-name" Toml.Value.text?
    let strictMode ← setting? entries "strict-mode" Toml.Value.boolean?
    return ⟨production.getD false, moduleName, strictMode.getD false⟩
  else none

/-- The section as a list of its values in order.  A list must reach the name; it
may be longer than the section. -/
def ofItems? : List Toml.Value → Option CompileSection
  | production :: name :: [] => do
      return ⟨← production.boolean?, some (← name.text?), false⟩
  | production :: name :: strict :: _ => do
      return ⟨← production.boolean?, some (← name.text?), ← strict.boolean?⟩
  | _ => none

def ofValue? (v : Toml.Value) : Option CompileSection :=
  match v.items? with
  | some items => ofItems? items
  | none => v.entries?.bind ofEntries?

end CompileSection

namespace Config

/-- The plugins of every stage by name. -/
def pluginNames? (v : Toml.Value) : Option (Named (List String)) := do
  (← v.entries?).mapM fun (stage, names) => return (stage, ← (← names.items?).mapM (·.text?))

/-- Metadata of any shape. -/
def metadata? (v : Toml.Value) : Option (Named Json) := do
  Toml.Value.entriesJson? (← v.entries?)

/-- The keys of the configuration. -/
def keys : List String := ["compile", "meta", "plugins"]

def ofEntries? (entries : List (String × Toml.Value)) : Option Config := do
  let compile ← setting? entries "compile" CompileSection.ofValue?
  let metadata ← setting? entries "meta" metadata?
  let plugins ← setting? entries "plugins" pluginNames?
  if entries.all fun (key, v) => keys.contains key || v.isHeld then
    return ⟨compile.getD {}, metadata.getD [], plugins.getD []⟩
  else none

/-- The name that a configuration file usually has. -/
def defaultName : String := "stencil.toml"

/-- Reads a configuration file. -/
def parse (text filename : String) : Except ConfigError Config :=
  match (Toml.read? text).bind ofEntries? with
  | some c => .ok c
  | none => .error (.malformed filename)

/-! ## Use -/

variable {m : Type → Type}

/-- The options that a configuration stands for. -/
def options (c : Config) : CompileOptions m where
  isProduction := c.compile.production
  moduleName := c.compile.moduleName
  strictMode := c.compile.strictMode
  metadata := c.metadata

/-- The plugins to register, if every stage and every plugin is known. -/
def resolvePlugins [Monad m] (c : Config) : Except ConfigError (List (Stage × PluginRef m)) := do
  let perStage ← c.plugins.mapM fun (stage, names) => do
    let s ← Stage.named stage
    names.mapM fun name => return (s, ← Catalogue.optionalNamed name)
  return perStage.flatten

/-- Registers the plugins of a configuration, all of them or none. -/
def register [Monad m] (c : Config) (r : Registry m) : Except ConfigError (Registry m) := do
  return (← c.resolvePlugins).foldl (fun r (s, p) => r.registerAt s p) r

end Config

end Bracework
