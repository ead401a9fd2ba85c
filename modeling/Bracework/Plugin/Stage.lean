/-
Plugins — the stages at which plugins run.
-/
namespace Bracework

/-- A stage of a compile; today there is one, on the tree. -/
inductive Stage where
  | ast
deriving DecidableEq, Repr

namespace Stage

/-- All stages, in the order in which they run. -/
def all : List Stage := [.ast]

def name : Stage → String
  | .ast => "ast"

/-- The stage with a name; case matters. -/
def ofName? (name : String) : Option Stage := all.find? (·.name == name)

theorem mem_all (s : Stage) : s ∈ all := by cases s; simp [all]

/-- A name is read back as the stage it belongs to, and no other text is. -/
theorem ofName?_eq_some_iff {text : String} {s : Stage} : ofName? text = some s ↔ text = s.name := by
  cases s
  by_cases h : text = "ast"
  · subst h; decide
  · simp only [ofName?, all, name, List.find?_cons, List.find?_nil]
    simp [h, beq_eq_false_iff_ne.mpr fun e : "ast" = text => h e.symm]

end Stage

/-- A list for every stage. -/
structure PerStage (α : Type) where
  ast : List α := []
deriving DecidableEq, Repr

namespace PerStage

variable {α β : Type}

/-- The list of a stage. -/
def get (lists : PerStage α) : Stage → List α
  | .ast => lists.ast

/-- The lists with that of one stage changed. -/
def modify (lists : PerStage α) (s : Stage) (f : List α → List α) : PerStage α :=
  match s with
  | .ast => { lists with ast := f lists.ast }

/-- The lists that a rule gives the stages. -/
def ofFn (f : Stage → List α) : PerStage α := ⟨f .ast⟩

/-- The entries of all stages. -/
def flatten (lists : PerStage α) : List α := Stage.all.flatMap lists.get

theorem get_modify (lists : PerStage α) (s s' : Stage) (f : List α → List α) :
    (lists.modify s f).get s' = if s' = s then f (lists.get s') else lists.get s' := by
  cases s; cases s'; rfl

theorem get_ofFn (f : Stage → List α) (s : Stage) : (ofFn f).get s = f s := by cases s; rfl

end PerStage

end Bracework
