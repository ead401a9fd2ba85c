/-
The command line — commands.

A request is carried out over some files and has an outcome: what is written to
standard output, what is complained about, and an exit code, 0 for success, 1
for a failure that the program reports, and 2 for arguments that make no sense.
A command that fails writes nothing to standard output; a check reports on the
files that passed all the same.
-/
import Bracework.CommandLine.Files
import Bracework.CommandLine.Report
import Bracework.CommandLine.Request
import Bracework.Compile.Snapshot
import Bracework.Project.Config

namespace Bracework.CommandLine

/-- The version of the program. -/
def versionText : String := "stencil 0.5.0"

/-- What the program leaves behind besides files. -/
structure Outcome where
  exit : Nat
  stdout : String := ""
  complaints : List String := []
deriving DecidableEq, Repr

/-- Why a command fails. -/
inductive Failure where
  | config (error : ConfigError)
  | read (path : String)
  | compile (error : CompileError)
  | write (path : String)
deriving DecidableEq, Repr

def Failure.message : Failure → String
  | .config e => e.message
  | .read path => "failed to read " ++ path
  | .compile e => e.message
  | .write path => "failed to write " ++ path

/-- The outcome of a command that prints its result. -/
def Outcome.ofResult : Except Failure String → Outcome
  | .ok text => ⟨0, text, []⟩
  | .error f => ⟨1, "", [f.message]⟩

variable {m : Type → Type} [Monad m]

/-! ## Configuration -/

/-- Reads the configuration at a path. -/
def Files.readConfig (files : Files m) (path : String) : ExceptT ConfigError m Config :=
  .mk do
    match ← files.read path with
    | some text => return Config.parse text path
    | none => return .error (.unreadable path)

/-- The configuration to use: a path that is given must lead to one, and without one
the usual file is used if it is there. -/
def Files.config (files : Files m) (path? : Option String) : ExceptT ConfigError m Config := do
  match path? with
  | some path => files.readConfig path
  | none =>
      if ← files.isThere Config.defaultName then files.readConfig Config.defaultName else return {}

/-- The options of a configuration under the settings of a request. -/
def PipelineRequest.options {n : Type → Type} (r : PipelineRequest) (c : Config) : CompileOptions n :=
  let o : CompileOptions n := c.options
  { o with isProduction := o.isProduction || r.production, moduleName := r.moduleName? <|> o.moduleName }

/-- The registry and the options for a request; the plugins run in a monad of their own. -/
def PipelineRequest.load (n : Type → Type) [Monad n] (files : Files m) (r : PipelineRequest) :
    ExceptT ConfigError m (Registry n × CompileOptions n) := do
  let c ← files.config r.config?
  let registry ← (.mk (pure (c.register {})) : ExceptT ConfigError m (Registry n))
  return (registry, r.options c)

/-- Options under which a template without a name goes by the path of its file. -/
def namedAfter {n : Type → Type} (path : String) (o : CompileOptions n) : CompileOptions n :=
  { o with moduleName := some (o.moduleName.getD path) }

/-! ## Compiling -/

/-- A run that keeps the snapshots of the current compile. -/
abbrev Traced (m : Type → Type) : Type → Type := StateT (List Snapshot) m

/-- The observer that writes every snapshot into a folder as it is taken. -/
def traceObserver (files : Files m) (folder : String) : Observer (Traced m) :=
  .snapshots get set fun s => .mk do
    let path := inFolder folder s.fileName
    if ← files.ensureFolders folder then
      if ← files.write path s.content then return .ok ()
      else return .error (Failure.write path).message
    else return .error (Failure.write folder).message

/-- The compiler that traces into a folder, if one is given. -/
def tracingCompiler (files : Files m) (traceDir? : Option String) : Compiler (Traced m) :=
  { Compiler.ofDefaults Catalogue.defaults with
    observers := traceDir?.toList.map (traceObserver files) }

/-- What a source compiles to, and the number of plugins that take part. -/
def compileSource (files : Files m) (registry : Registry (Traced m))
    (o : CompileOptions (Traced m)) (traceDir? : Option String) (source : String) :
    ExceptT CompileError m (String × Nat) :=
  let compiler := tracingCompiler files traceDir?
  let resolved := compiler.resolve registry o
  .mk do
    let (result, _) ← (compiler.compileResolved source resolved).run.run []
    return result.map fun compiled => (compiled.print, resolved.plugins.flatten.length)

/-- Reads a template. -/
def Files.template (files : Files m) (path : String) : ExceptT Failure m String :=
  .mk do
    match ← files.read path with
    | some text => return .ok text
    | none => return .error (.read path)

/-- Writes a result. -/
def Files.save (files : Files m) (path content : String) : ExceptT Failure m Unit :=
  .mk do
    if ← files.write path content then return .ok () else return .error (.write path)

/-- Compiles a file; gives back what to print. -/
def compileFile (files : Files m) (r : PipelineRequest) (file : String)
    (output? traceDir? : Option String) : ExceptT Failure m String := do
  let (registry, o) ← (r.load (Traced m) files).adapt .config
  let source ← files.template file
  let (text, plugins) ←
    (compileSource files registry (namedAfter file o) traceDir? source).adapt .compile
  match output? with
  | none => return text ++ "\n"
  | some output => do
      files.save output text
      return compileReport file output plugins traceDir?

/-! ## Plugins -/

/-- Lists the plugins that a compile would run. -/
def listPlugins (files : Files m) (r : PipelineRequest) : ExceptT Failure m String := do
  let (registry, o) ← (r.load m files).adapt .config
  let resolved := o.resolve Catalogue.defaults registry
  let available := Catalogue.optionalNames.filter fun name =>
    !(registry.get .ast).any (·.name == name)
  return pluginsReport resolved.isProduction (resolved.plugins.get .ast) available

/-! ## Checks -/

/-- Reads and transforms one file; gives back why it fails, if it does. -/
def checkFile (files : Files m) (registry : Registry m) (o : CompileOptions m) (file : String) :
    m (Option Failure) := do
  match ← files.read file with
  | none => return some (.read file)
  | some source =>
      match ← (Compiler.transform (.ofDefaults Catalogue.defaults) registry source
          (namedAfter file o)).run with
      | .ok _ => return none
      | .error e => return some (.compile e)

/-- Checks files one by one. -/
def checkFiles (files : Files m) (r : PipelineRequest) (paths : List String) : m Outcome := do
  match ← (r.load m files).run with
  | .error e => return .ofResult (.error (.config e))
  | .ok (registry, o) =>
      let failures ← paths.mapM (checkFile files registry o)
      return {
        exit := if failures.all (·.isNone) then 0 else 1
        stdout := checkReport (paths.zip (failures.map (·.isNone)))
        complaints := failures.filterMap (·.map Failure.message) }

/-! ## All requests -/

/-- Carries out a request. -/
def Request.run (files : Files m) : Request → m Outcome
  | .version => return ⟨0, versionText ++ "\n", []⟩
  | .compile r file output? traceDir? =>
      return .ofResult (← (compileFile files r file output? traceDir?).run)
  | .plugins r => return .ofResult (← (listPlugins files r).run)
  | .check r paths => checkFiles files r paths

/-- Runs the program on its arguments. -/
def run (files : Files m) (arguments : List String) : m Outcome :=
  match Request.read? arguments with
  | some r => r.run files
  | none => return ⟨2, "", ["usage: stencil <compile|plugins|check> [settings] [files]"]⟩

end Bracework.CommandLine
