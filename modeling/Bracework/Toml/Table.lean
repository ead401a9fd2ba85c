/-
TOML — how tables come about.

While a document is read, a table remembers how it came about, because that
decides what may still be added to it: a header opens a table that a longer
header implied, once; dotted keys add only to tables that dotted keys made; a
table written as a value is closed.  `Section.apply?` adds one header and the
entries below it to a document.
-/
import Bracework.Toml.Value

namespace Bracework.Toml

/-- How a table came about. -/
inductive Origin where
  | header
  | implied
  | dotted
deriving DecidableEq, Repr

/-- What a key stands for while a document is read; `tables` has one table for
every header in double brackets. -/
inductive Item where
  | value (value : Value)
  | table (origin : Origin) (entries : List (String × Item))
  | tables (all : List (List (String × Item)))
deriving Inhabited

/-- The entries of a table while a document is read. -/
abbrev Entries : Type := Named Item

/-- A key with dots: the tables it goes through and the last part. -/
structure Key where
  path : List String
  last : String
deriving DecidableEq, Repr

/-- A key and its value. -/
structure Entry where
  key : Key
  value : Value

namespace Entries

/-- A list of tables with the last one changed. -/
def changeLast (f : Entries → Option Entries) : List Entries → Option (List Entries)
  | [] => none
  | [es] => return [← f es]
  | es :: rest => return es :: (← changeLast f rest)

/-- Changes the table that a path leads to.  Tables on the way that are not there
are made.  Dotted keys may pass only through tables without a header of their own;
no path leads into a value. -/
def changeAt (dotted : Bool) (f : Origin → Entries → Option Entries) :
    List String → Origin → Entries → Option Entries
  | [], origin, es => f origin es
  | key :: path, _, es =>
      match es.lookup key with
      | none => do
          let origin := if dotted then .dotted else .implied
          return es.put key (.table origin (← changeAt dotted f path origin []))
      | some (.table origin inner) =>
          if dotted && origin == .header then none
          else return es.put key (.table origin (← changeAt dotted f path origin inner))
      | some (.tables all) =>
          return es.put key (.tables (← changeLast (changeAt dotted f path .header) all))
      | some (.value _) => none

/-- Adds an entry.  Its table must have been made by dotted keys exactly if the
entry's key has dots, and must not have the last part yet. -/
def add (es : Entries) (e : Entry) : Option Entries :=
  changeAt true (fun origin es =>
    if (origin == .dotted) == e.key.path.isEmpty then none
    else if (es.lookup e.key.last).isSome then none
    else some (es.put e.key.last (.value e.value))) e.key.path .header es

/-- Adds entries one after the other. -/
def addAll (es : Entries) (entries : List Entry) : Option Entries := entries.foldlM add es

end Entries

mutual
/-- The value that an item amounts to. -/
def Item.toValue : Item → Value
  | .value v => v
  | .table _ es => .table (Named.sorted (entriesToValues es))
  | .tables all => .array (tablesToValues all)
termination_by structural i => i

def entriesToValues : List (String × Item) → List (String × Value)
  | [] => []
  | (key, i) :: rest => (key, i.toValue) :: entriesToValues rest
termination_by structural rest => rest

def tablesToValues : List (List (String × Item)) → List Value
  | [] => []
  | es :: rest => .table (Named.sorted (entriesToValues es)) :: tablesToValues rest
termination_by structural rest => rest
end

/-- A table written as a value. -/
def Value.ofEntries? (entries : List Entry) : Option Value :=
  (Entries.addAll [] entries).map fun es => .table (Named.sorted (entriesToValues es))

/-! ## Documents -/

/-- A header, in double brackets or not, and the entries below it. -/
structure Section where
  double : Bool
  header : Key
  entries : List Entry

/-- A document: the entries above the first header, and the sections. -/
structure Document where
  entries : List Entry
  sections : List Section

/-- Adds a section to the entries of a document. -/
def Section.apply? (es : Entries) (s : Section) : Option Entries :=
  Entries.changeAt false (fun _ es =>
    match s.double, es.lookup s.header.last with
    | false, none => return es.put s.header.last (.table .header (← Entries.addAll [] s.entries))
    | false, some (.table .implied inner) =>
        return es.put s.header.last (.table .header (← Entries.addAll inner s.entries))
    | true, none => return es.put s.header.last (.tables [← Entries.addAll [] s.entries])
    | true, some (.tables all) =>
        return es.put s.header.last (.tables (all ++ [← Entries.addAll [] s.entries]))
    | _, _ => none) s.header.path .header es

/-- The table of a document. -/
def Document.table? (d : Document) : Option (List (String × Value)) := do
  let es ← Entries.addAll [] d.entries
  let es ← d.sections.foldlM Section.apply? es
  return Named.sorted (entriesToValues es)

end Bracework.Toml
