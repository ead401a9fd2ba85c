/-
Plugins — one run on one tree.

A run makes the plugin anew, lets it work on the tree and then checks what it
gives back, so a plugin can never hand on a tree that breaks the rules.  A
failing factory goes by the name it gave itself, a failing transform by the name
of its reference.
-/
import Bracework.Plugin.Reference
import Bracework.Template.Validity

namespace Bracework

/-- Why a run has no result. -/
inductive PluginError where
  | failed (plugin cause : String)
  | invalid (plugin : String) (breach : Breach)
deriving DecidableEq, Repr

namespace PluginError

/-- The name of the plugin that is to blame. -/
def plugin : PluginError → String
  | .failed plugin _ => plugin
  | .invalid plugin _ => plugin

def message : PluginError → String
  | .failed plugin _ => "plugin '" ++ plugin ++ "' failed"
  | .invalid plugin _ => "plugin '" ++ plugin ++ "' produced an invalid AST"

/-- What went wrong inside. -/
def cause : PluginError → String
  | .failed _ cause => cause
  | .invalid _ breach => breach.message

def code : PluginError → String
  | .failed .. => "stencil::plugin_failed"
  | .invalid .. => "stencil::invalid_ast"

end PluginError

namespace PluginRef

variable {m : Type → Type} [Monad m]

/-- Makes the plugin and lets it work: the name it goes by, and its tree or its failure. -/
def work (p : PluginRef m) (c : PluginContext) (t : Template) :
    m (String × Except String Template) :=
  match p with
  | .factory _ _ build => do
      let plugin ← build c
      return (plugin.name, ← (plugin.visitor.traverse t).run)
  | .transform type name => do
      let transform ← type.construct c
      return (name, ← (transform t).run)

/-- What becomes of the tree that a plugin gave back. -/
def judge (name : String) : Except String Template → Except PluginError Template
  | .error cause => .error (.failed name cause)
  | .ok t => match t.validate with
    | .ok () => .ok t
    | .error breach => .error (.invalid name breach)

/-- Runs a plugin once and checks its tree. -/
def applyOnce (p : PluginRef m) (c : PluginContext) (t : Template) :
    ExceptT PluginError m Template :=
  .mk do
    let (name, result) ← p.work c t
    return judge name result

end PluginRef

end Bracework
