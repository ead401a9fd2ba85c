/-
Project files — what can be wrong with a configuration.
-/
import Bracework.Plugin.Stage

namespace Bracework

/-- Why a configuration cannot be used. -/
inductive ConfigError where
  | unknownStage (name : String)
  | unknownPlugin (name : String) (available : List String)
  | unreadable (path : String)
  | malformed (filename : String)
deriving DecidableEq, Repr

namespace ConfigError

def message : ConfigError → String
  | .unknownStage name => "unknown pipeline stage '" ++ name ++ "'"
  | .unknownPlugin name _ => "unknown plugin '" ++ name ++ "'"
  | .unreadable path => "failed to read '" ++ path ++ "'"
  | .malformed filename => "failed to parse " ++ filename

def code? : ConfigError → Option String
  | .unknownStage _ => some "stencil::unknown_stage"
  | .unknownPlugin .. => some "stencil::unknown_plugin"
  | .unreadable _ => none
  | .malformed _ => some "stencil::config::parse"

def help? : ConfigError → Option String
  | .unknownStage _ => some ("known stages are: " ++ ", ".intercalate (Stage.all.map Stage.name))
  | .unknownPlugin _ available => some ("available plugins are: " ++ ", ".intercalate available)
  | .unreadable _ => some "pass --config with the path to a stencil.toml file"
  | .malformed _ => none

end ConfigError

/-- The stage with a name, or the complaint that there is none. -/
def Stage.named (name : String) : Except ConfigError Stage :=
  match Stage.ofName? name with
  | some s => .ok s
  | none => .error (.unknownStage name)

end Bracework
