/-
Symbols — the table that lowering builds up.

Lowering adds heads to a list one at a time and looks each up in what is there
already.  Seen from outside, the list is the one it started from, followed by the
heads that name arguments, each where it comes first and none that was there
before.  The heads are those of the paths of a tree, which a walk visits in the
order of its nodes.
-/
import Mathlib.Data.List.Induction
import Bracework.Proofs.Traversal.DocumentOrder
import Bracework.Wire.Lowering

namespace Bracework

/-! ## Paths of a tree -/

/-- The path that a node is, if it is one. -/
def Node.paths : Node → List Path
  | ⟨.path, p⟩ => [p]
  | _ => []

/-- The paths among some nodes. -/
def pathsAmong (nodes : List Node) : List Path := nodes.flatMap Node.paths

@[simp] theorem pathsAmong_append (as bs : List Node) :
    pathsAmong (as ++ bs) = pathsAmong as ++ pathsAmong bs := List.flatMap_append

theorem pathsAmong_flatMap {α : Type} (nodes : α → List Node) (l : List α) :
    pathsAmong (l.flatMap nodes) = l.flatMap fun a => pathsAmong (nodes a) :=
  List.flatMap_assoc

/-- The paths of a template in the order in which a walk visits them. -/
def Template.visitedPaths (t : Template) : List Path :=
  ((t.visit fun k n => do
    modify (· ++ Node.paths ⟨k, n⟩)
    return n : StateM (List Path) Template).run []).2

theorem Template.visitedPaths_eq (t : Template) : t.visitedPaths = pathsAmong t.nodes :=
  t.visit_noting Node.paths

namespace Lowering

/-! ## Noting heads -/

/-- Whether a head names an argument. -/
def isArgument (head : String) : Bool := head.toList.head? == some '@'

/-- The symbols after some heads were read. -/
def noteAll (heads symbols : List String) : List String :=
  heads.foldl (fun symbols head => noteSymbol head symbols) symbols

theorem noteAll_append (heads heads' symbols : List String) :
    noteAll (heads ++ heads') symbols = noteAll heads' (noteAll heads symbols) :=
  List.foldl_append

/-- Some symbols, and after them the heads that name arguments and are not among them, each
where it comes first. -/
def table (symbols heads : List String) : List String :=
  symbols ++ ((heads.filter isArgument).eraseDups.filter fun head => !symbols.contains head)

theorem eraseDups_snoc (heads : List String) (head : String) :
    (heads ++ [head]).eraseDups =
      if head ∈ heads then heads.eraseDups else heads.eraseDups ++ [head] := by
  by_cases h : head ∈ heads <;> simp [List.eraseDups_append, List.removeAll, List.eraseDups_cons, h]

/-- One more head joins a table as reading it adds a symbol. -/
theorem table_snoc (symbols heads : List String) (head : String) :
    table symbols (heads ++ [head]) = noteSymbol head (table symbols heads) := by
  have hcond : (head.toList.head? == some '@') = isArgument head := rfl
  rw [noteSymbol, hcond]
  cases h : isArgument head with
  | false => simp [table, h]
  | true =>
      by_cases hs : head ∈ symbols
      · simp [table, h, hs, eraseDups_snoc, apply_ite (List.filter _)]
      · by_cases hh : head ∈ heads <;> simp [table, h, hs, hh, eraseDups_snoc]

theorem noteAll_eq_table (heads symbols : List String) :
    noteAll heads symbols = table symbols heads := by
  induction heads using List.reverseRecOn with
  | nil => exact (List.append_nil symbols).symm
  | append_singleton heads head ih => rw [noteAll_append, ih, table_snoc]; rfl

end Lowering

end Bracework
