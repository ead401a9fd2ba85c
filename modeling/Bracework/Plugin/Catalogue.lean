/-
Plugins — the plugins that come with the compiler, by name.
-/
import Bracework.Plugin.Assertions
import Bracework.Plugin.Edits
import Bracework.Plugin.Selection

namespace Bracework

namespace Catalogue

variable {m : Type → Type} [Monad m]

/-- The built-in set. -/
def defaults : DefaultSet m where
  ast := [.always quotedBindings, .always blockKeywords, .debugOnly reservedArguments,
    .debugOnly assertConditionalArguments, .pair debuggerArguments stripDebugStatements]

/-- The plugins that only run where they are registered. -/
def optional : List (PluginRef m) := [testSelectors]

/-- The names of the optional plugins. -/
def optionalNames : List String := (optional (m := Id)).map PluginRef.name

/-- The optional plugin with a name. -/
def optional? (name : String) : Option (PluginRef m) := optional.find? (·.name == name)

/-- The optional plugin with a name, or the complaint that there is none. -/
def optionalNamed (name : String) : Except ConfigError (PluginRef m) :=
  match optional? name with
  | some p => .ok p
  | none => .error (.unknownPlugin name optionalNames)

/-- Serial numbers above those of the plugins here. -/
def mint : Mint := ⟨5⟩

end Catalogue

end Bracework
