/-
Compiling — an observer that notes every hook and may stop a compile.
-/
import Bracework.Compile.Compiler
import Bracework.Template.Printer

namespace Bracework

/-- The hooks of an observer. -/
inductive Hook where
  | start
  | before
  | after
deriving DecidableEq, Repr

/-- When a watcher fails: at a hook, for one plugin or for all.  At the start the
plugin's name is empty. -/
structure Watcher where
  hook? : Option Hook := none
  plugin? : Option String := none
  message : String := ""
deriving DecidableEq, Repr

namespace Watcher

variable {m : Type → Type} [Monad m]

/-- Fails if this is the moment to. -/
def check (w : Watcher) (hook : Hook) (plugin : String) : Effect m Unit :=
  if w.hook? == some hook && w.plugin?.all (· == plugin) then throw w.message else pure ()

/-- The observer of a watcher, given how to note a line of text. -/
def observer (note : String → m Unit) (w : Watcher) : Observer m where
  name := "watcher"
  start o := do
    note ("start " ++ toString o.plugins.flatten.length)
    w.check .start ""
  before plugin t := do
    note ("before " ++ plugin ++ " " ++ t.print)
    w.check .before plugin
  after plugin t := do
    note ("after " ++ plugin ++ " " ++ t.print)
    w.check .after plugin

end Watcher

end Bracework
