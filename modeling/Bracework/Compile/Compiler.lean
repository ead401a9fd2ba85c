/-
Compiling — one template from source to program.

A compile greets every observer, reads the source, runs the resolved plugins one
after the other, each between the before and after hooks of all observers, and
generates the program from the last tree.  It stops at the first step that
fails.  The reader and the generator may be replaced, and every step runs in the
caller's monad, so a test can see in which order they come.
-/
import Bracework.Compile.CompileError
import Bracework.Compile.Options
import Bracework.Template.Tree

namespace Bracework

variable {m : Type → Type}

/-- Hooks around the steps of a compile; a hook that fails stops it. -/
structure Observer (m : Type → Type) where
  name : String
  start : ResolvedOptions m → Effect m Unit
  before : String → Template → Effect m Unit
  after : String → Template → Effect m Unit

/-- A compiler: the built-in set, how sources are read and programs generated,
and who looks on. -/
structure Compiler (m : Type → Type) where
  defaults : DefaultSet m
  read : String → ResolvedOptions m → ExceptT SourceError m Template
  generate : Template → ResolvedOptions m → ExceptT GenerateFault m CompiledTemplate
  observers : List (Observer m) := []

/-! ## Reading and generating -/

/-- Reads a source that goes by the module's name. -/
def readTemplate [Monad m] (source : String) (o : ResolvedOptions m) :
    ExceptT SourceError m Template :=
  .mk (pure (Template.parse source (o.moduleName.getD SourceContext.defaultName)))

/-- The program of a tree under some options. -/
def Template.compiled (t : Template) (o : ResolvedOptions m) :
    Except GenerateFault CompiledTemplate :=
  return ⟨← t.lower, o.moduleName, o.strictMode, o.metadata⟩

def generateProgram [Monad m] (t : Template) (o : ResolvedOptions m) :
    ExceptT GenerateFault m CompiledTemplate :=
  .mk (pure (t.compiled o))

namespace Compiler

variable [Monad m]

/-- The compiler with a built-in set and nobody looking on. -/
def ofDefaults (defaults : DefaultSet m) : Compiler m := ⟨defaults, readTemplate, generateProgram, []⟩

/-! ## Steps -/

/-- Calls one hook of every observer. -/
def observe (c : Compiler m) (hook : Observer m → Effect m Unit) : ExceptT CompileError m Unit :=
  c.observers.forM fun o => (hook o).adapt (.observer o.name)

/-- One plugin between its hooks. -/
def step (c : Compiler m) (context : PluginContext) (t : Template) (p : SelectedPlugin m) :
    ExceptT CompileError m Template := do
  c.observe fun o => o.before p.plugin.name t
  let t ← (p.plugin.applyOnce context t).adapt .plugin
  c.observe fun o => o.after p.plugin.name t
  return t

/-- The plugins of a stage, one after the other. -/
def runStage (c : Compiler m) (o : ResolvedOptions m) (t : Template) (s : Stage) :
    ExceptT CompileError m Template :=
  (o.plugins.get s).foldlM (c.step o.context) t

/-! ## Compiles with resolved options -/

/-- The tree after all plugins. -/
def transformResolved (c : Compiler m) (source : String) (o : ResolvedOptions m) :
    ExceptT CompileError m Template := do
  c.observe fun observer => observer.start o
  let t ← (c.read source o).adapt .parse
  Stage.all.foldlM (c.runStage o) t

/-- The program of a template. -/
def compileResolved (c : Compiler m) (source : String) (o : ResolvedOptions m) :
    ExceptT CompileError m CompiledTemplate := do
  let t ← c.transformResolved source o
  (c.generate t o).adapt .generate

/-! ## Compiles with a caller's options -/

def resolve (c : Compiler m) (registry : Registry m) (o : CompileOptions m) : ResolvedOptions m :=
  o.resolve c.defaults registry

def transform (c : Compiler m) (registry : Registry m) (source : String) (o : CompileOptions m) :
    ExceptT CompileError m Template :=
  c.transformResolved source (c.resolve registry o)

def compile (c : Compiler m) (registry : Registry m) (source : String) (o : CompileOptions m) :
    ExceptT CompileError m CompiledTemplate :=
  c.compileResolved source (c.resolve registry o)

/-- The text of the program of a template. -/
def precompile (c : Compiler m) (registry : Registry m) (source : String) (o : CompileOptions m) :
    ExceptT CompileError m String :=
  return (← c.compile registry source o).print

end Compiler

end Bracework
