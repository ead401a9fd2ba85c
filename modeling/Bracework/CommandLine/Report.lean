/-
The command line — reports.
-/
import Bracework.Plugin.Selection

namespace Bracework.CommandLine

/-- Lines of text, each with its end. -/
def lines (ls : List String) : String := String.join (ls.map (· ++ "\n"))

/-- A text with blanks in front up to a width. -/
def rightAligned (width : Nat) (text : String) : String :=
  "".pushn ' ' (width - text.length) ++ text

/-! ## Compiling -/

/-- The report of a compile whose result went to a file. -/
def compileReport (file output : String) (plugins : Nat) (traceDir? : Option String) : String :=
  let plural := if plugins == 1 then "" else "s"
  lines (["✓ compiled " ++ file ++ " (" ++ toString plugins ++ " plugin" ++ plural ++ ")",
      "  output: " ++ output] ++
    match traceDir? with
    | some folder => ["  trace: " ++ folder]
    | none => [])

/-! ## Plugins -/

/-- A line of a numbered list; the numbers count from 1. -/
def numbered (position : Nat) (text : String) : String :=
  "  " ++ rightAligned 2 (toString (position + 1)) ++ ". " ++ text

/-- A plugin with its kind and the reason why it runs. -/
def pluginLine {m : Type → Type} (p : SelectedPlugin m) : String :=
  p.plugin.name ++ " (" ++ p.plugin.kind.name ++ ", " ++ p.source.name ++ ")"

/-- The plugins that a compile would run and those that could be registered. -/
def pluginsReport {m : Type → Type} (isProduction : Bool) (plugins : List (SelectedPlugin m))
    (available : List String) : String :=
  lines (["mode: " ++ (if isProduction then "production" else "debug"), "",
      Stage.ast.name ++ " plugins:"] ++
    plugins.mapIdx (fun i p => numbered i (pluginLine p)) ++
    if available.isEmpty then [] else ["", "available:"] ++ available.map ("  - " ++ ·))

/-! ## Checks -/

/-- The report of a check of files, each with whether it passed. -/
def checkReport (files : List (String × Bool)) : String :=
  let failed := files.countP fun (_, passed) => !passed
  lines ((files.filter (·.2)).map (fun (file, _) => "✓ " ++ file ++ " is valid") ++
    if failed == 0 then []
    else ["", toString failed ++ " of " ++ toString files.length ++ " templates failed"])

end Bracework.CommandLine
