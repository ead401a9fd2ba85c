/-
The command line — arguments.

A command takes settings and words.  A setting is a flag or has a value, which
may follow as the next argument, behind an equals sign, or, for a short name,
right behind it; an argument that starts with a dash and goes on is never a
value.  Behind two dashes everything is a word.  No setting is given twice.
-/
import Bracework.Text.Utf8

namespace Bracework.CommandLine

/-- The settings of the commands. -/
inductive Setting where
  | config
  | production
  | moduleName
  | output
  | traceDir
deriving DecidableEq, Repr

namespace Setting

def long : Setting → String
  | .config => "config"
  | .production => "production"
  | .moduleName => "module-name"
  | .output => "output"
  | .traceDir => "trace-dir"

def short? : Setting → Option Char
  | .config => some 'c'
  | .output => some 'o'
  | _ => none

/-- Whether a setting is a flag. -/
def isFlag (s : Setting) : Bool := s == .production

/-- Whether the value of a setting is a path, which cannot be empty. -/
def isPath : Setting → Bool
  | .config => true
  | .output => true
  | .traceDir => true
  | _ => false

/-- The settings of every command that runs plugins. -/
def pipeline : List Setting := [.config, .production, .moduleName]

end Setting

/-- The arguments of a command; a flag has the empty value. -/
structure Arguments where
  settings : List (Setting × String) := []
  words : List String := []
deriving DecidableEq, Repr

namespace Arguments

/-- Whether an argument must be the name of a setting. -/
def startsSetting (argument : String) : Bool :=
  match argument.toList with
  | '-' :: _ :: _ => true
  | _ => false

/-- An argument as the name of a setting and the value attached to it, if any. -/
def setting? (allowed : List Setting) (argument : String) : Option (Setting × Option String) :=
  match argument.toList with
  | '-' :: '-' :: cs =>
      let (name, value?) := match splitAtFirst? ['='] cs with
        | some (name, value) => (name, some (String.ofList value))
        | none => (cs, none)
      (allowed.find? fun s => s.long.toList == name).map (·, value?)
  | '-' :: c :: cs =>
      let value? := match cs with
        | [] => none
        | '=' :: value => some (String.ofList value)
        | value => some (String.ofList value)
      (allowed.find? fun s => s.short? == some c).map (·, value?)
  | _ => none

/-- The arguments with one more setting. -/
def withSetting (a : Arguments) (s : Setting) (value : String) : Option Arguments :=
  if a.settings.any (·.1 == s) || (s.isPath && value.isEmpty) then none
  else some { a with settings := (s, value) :: a.settings }

/-- The arguments with one more word. -/
def withWord (a : Arguments) (word : String) : Arguments := { a with words := word :: a.words }

/-- Sorts arguments into settings and words; nothing if they make no sense. -/
def read? (allowed : List Setting) : List String → Option Arguments
  | [] => some {}
  | argument :: rest =>
      if argument == "--" then some { words := rest }
      else if startsSetting argument then
        match setting? allowed argument, rest with
        | some (s, none), rest =>
            if s.isFlag then do (← read? allowed rest).withSetting s ""
            else match rest with
              | value :: rest =>
                  if startsSetting value then none
                  else do (← read? allowed rest).withSetting s value
              | [] => none
        | some (s, some value), rest =>
            if s.isFlag then none else do (← read? allowed rest).withSetting s value
        | none, _ => none
      else do return (← read? allowed rest).withWord argument

/-- The value of a setting. -/
def value? (a : Arguments) (s : Setting) : Option String := a.settings.lookup s

end Arguments

/-! ## Requests -/

/-- What every command that runs plugins is told. -/
structure PipelineRequest where
  config? : Option String := none
  production : Bool := false
  moduleName? : Option String := none
deriving DecidableEq, Repr

/-- What the program is asked to do. -/
inductive Request where
  | version
  | compile (pipeline : PipelineRequest) (file : String) (output? traceDir? : Option String)
  | plugins (pipeline : PipelineRequest)
  | check (pipeline : PipelineRequest) (files : List String)
deriving DecidableEq, Repr

namespace Request

def pipelineOf (a : Arguments) : PipelineRequest :=
  ⟨a.value? .config, (a.value? .production).isSome, a.value? .moduleName⟩

def ofCompile? (arguments : List String) : Option Request := do
  let a ← Arguments.read? (Setting.pipeline ++ [.output, .traceDir]) arguments
  match a.words with
  | [file] =>
      if file.isEmpty then none
      else return .compile (pipelineOf a) file (a.value? .output) (a.value? .traceDir)
  | _ => none

def ofPlugins? (arguments : List String) : Option Request := do
  let a ← Arguments.read? Setting.pipeline arguments
  if a.words.isEmpty then return .plugins (pipelineOf a) else none

def ofCheck? (arguments : List String) : Option Request := do
  let a ← Arguments.read? Setting.pipeline arguments
  if a.words.isEmpty || a.words.any (·.isEmpty) then none
  else return .check (pipelineOf a) a.words

/-- The request that arguments make; nothing if they make none. -/
def read? : List String → Option Request
  | [] => none
  | first :: rest =>
      if first == "--version" || "-V".toList.isPrefixOf first.toList then some .version
      else if first == "compile" then ofCompile? rest
      else if first == "plugins" then ofPlugins? rest
      else if first == "check" then ofCheck? rest
      else none

end Request

end Bracework.CommandLine
