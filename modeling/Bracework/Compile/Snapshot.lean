/-
Compiling — snapshots of the tree after every plugin.

The snapshots of a compile are numbered from 1.  A compile starts with none, so
what is there always tells about the latest one.  A snapshot can be kept in a
file of its own, whose name is safe whatever the plugin is called.
-/
import Bracework.Compile.Compiler
import Bracework.Json.Text
import Bracework.Template.Printer

namespace Bracework

/-- The printed tree right after a plugin has run. -/
structure Snapshot where
  index : Nat
  plugin : String
  template : String
deriving DecidableEq, Repr, Inhabited

namespace Snapshot

/-- Whether a character of a plugin's name may stand in a file name. -/
def isFileNameChar (c : Char) : Bool :=
  'a' ≤ c && c ≤ 'z' || 'A' ≤ c && c ≤ 'Z' || '0' ≤ c && c ≤ '9' ||
    c == '-' || c == '_' || c == '.'

/-- A number of at least two digits. -/
def twoDigits (n : Nat) : List Char :=
  if n < 10 then '0' :: Nat.toDigits 10 n else Nat.toDigits 10 n

/-- The name of the file of a snapshot: its number and the plugin's name with an
underscore for every character that is not safe. -/
def fileName (s : Snapshot) : String :=
  String.ofList (twoDigits s.index ++ '-' ::
    s.plugin.toList.map (fun c => if isFileNameChar c then c else '_') ++ ".json".toList)

def toJson (s : Snapshot) : Json :=
  .object [("index", .whole s.index), ("plugin", .string s.plugin),
    ("template", .string s.template)]

/-- The text of the file of a snapshot. -/
def content (s : Snapshot) : String := s.toJson.indented

/-- The snapshot that follows others. -/
def next (taken : List Snapshot) (plugin : String) (t : Template) : Snapshot :=
  ⟨taken.length + 1, plugin, t.print⟩

end Snapshot

/-- An observer that keeps snapshots, given how to change what is kept and what to
do with each new one. -/
def Observer.snapshots {m : Type → Type} [Monad m] (kept : m (List Snapshot))
    (keep : List Snapshot → m Unit) (write : Snapshot → Effect m Unit) : Observer m where
  name := "ast-snapshots"
  start _ := keep []
  before _ _ := pure ()
  after plugin t := do
    let taken ← kept
    let s := Snapshot.next taken plugin t
    keep (taken ++ [s])
    write s

end Bracework
