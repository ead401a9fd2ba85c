/-
Plugins — references.

A plugin comes in one of two conventions.  A factory builds, for each template,
a name and a visitor that a traversal then runs.  A transform type makes, for
each template, a function on the whole tree.  Both are told what is being
compiled, both may fail with a message, and both run in a monad of the caller's
choice.

A reference is what the pipeline passes around.  References are compared by
identity: every factory has a serial number of its own, and a transform is its
type together with the name it goes by.  `Mint` gives out the serial numbers.
-/
import Bracework.Json.Text
import Bracework.Template.Visitor
import Bracework.Text.Assoc

namespace Bracework

/-- What a plugin is told about the compile it takes part in. -/
structure PluginContext where
  moduleName : Option String := none
  isProduction : Bool := false
  strictMode : Bool := false
  metadata : Named Json := []
deriving Inhabited

/-- The context as one JSON object. -/
def PluginContext.toJson (c : PluginContext) : Json :=
  .object [("module_name", (c.moduleName.map Json.string).getD .null),
    ("is_production", .bool c.isProduction), ("strict_mode", .bool c.strictMode),
    ("meta", .object c.metadata)]

/-- A computation that may fail with a message; what it did before stays done. -/
abbrev Effect (m : Type → Type) (α : Type) : Type := ExceptT String m α

/-- What a factory builds: a visitor and the name it goes by when it fails. -/
structure AstPlugin (m : Type → Type) where
  name : String
  visitor : Visitor (Effect m)

/-- A type of whole-tree transforms.  The key tells types apart; a reference
that is given no name of its own takes the default one. -/
structure TransformType (m : Type → Type) where
  key : String
  defaultName : String
  construct : PluginContext → m (Template → Effect m Template)

/-- The two conventions of writing a plugin. -/
inductive PluginKind where
  | factory
  | legacy
deriving DecidableEq, Repr

def PluginKind.name : PluginKind → String
  | .factory => "factory"
  | .legacy => "legacy"

/-- What tells two references apart. -/
inductive PluginIdentity where
  | factory (serial : Nat)
  | transform (type name : String)
deriving DecidableEq, Repr

/-- A reference to a plugin. -/
inductive PluginRef (m : Type → Type) where
  | factory (serial : Nat) (name : String) (build : PluginContext → m (AstPlugin m))
  | transform (type : TransformType m) (name : String)

namespace PluginRef

variable {m : Type → Type}

def name : PluginRef m → String
  | .factory _ name _ => name
  | .transform _ name => name

def kind : PluginRef m → PluginKind
  | .factory .. => .factory
  | .transform .. => .legacy

def identity : PluginRef m → PluginIdentity
  | .factory serial _ _ => .factory serial
  | .transform type name => .transform type.key name

/-- References are equal when they are the same plugin, whatever they are called. -/
instance : BEq (PluginRef m) := ⟨fun p q => p.identity == q.identity⟩

theorem beq_eq_true_iff {p q : PluginRef m} : (p == q) = true ↔ p.identity = q.identity := by
  show (p.identity == q.identity) = true ↔ _
  exact beq_iff_eq

end PluginRef

/-- The source of serial numbers: those below `next` are taken. -/
structure Mint where
  next : Nat
deriving DecidableEq, Repr

/-- A new factory, unlike any other. -/
def Mint.factory {m : Type → Type} (mint : Mint) (name : String)
    (build : PluginContext → m (AstPlugin m)) : PluginRef m × Mint :=
  (.factory mint.next name build, ⟨mint.next + 1⟩)

end Bracework
