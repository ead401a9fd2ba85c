/-
Compiling — why a template has no result.
-/
import Bracework.Plugin.Application
import Bracework.Template.ParseError
import Bracework.Wire.Lowering

namespace Bracework

/-- Why a compile stops. -/
inductive CompileError where
  | parse (error : SourceError)
  | plugin (error : PluginError)
  | observer (name cause : String)
  | generate (fault : GenerateFault)
deriving DecidableEq, Repr

namespace CompileError

def message : CompileError → String
  | .parse e => e.error.fault.message
  | .plugin e => e.message
  | .observer name _ => "observer '" ++ name ++ "' failed"
  | .generate fault => "failed to generate template: " ++ fault.message

def code? : CompileError → Option String
  | .parse e => some e.error.fault.code
  | .plugin e => some e.code
  | .observer .. => none
  | .generate _ => some "stencil::generate"

/-- The plugin that is to blame, if one is. -/
def plugin? : CompileError → Option String
  | .plugin e => some e.plugin
  | _ => none

/-- What went wrong inside. -/
def cause? : CompileError → Option String
  | .parse _ => none
  | .plugin e => some e.cause
  | .observer _ cause => some cause
  | .generate _ => none

end CompileError

end Bracework
