/-
Plugins — where in a template a complaint belongs.
-/
import Bracework.Template.Syntax

namespace Bracework

/-- A message followed by the module, if it has a name, and the byte it is about. -/
def located (message : String) (moduleName : Option String) (span : Span) : String :=
  let place := "@ byte " ++ toString span.start
  match moduleName with
  | some name => message ++ " ('" ++ name ++ "' " ++ place ++ ")"
  | none => message ++ " (" ++ place ++ ")"

end Bracework
