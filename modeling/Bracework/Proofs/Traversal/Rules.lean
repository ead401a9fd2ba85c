/-
Traversal — rules that look at one node at a time.

Much of what is said about a tree is a rule for each kind of node, and holds of
the tree if it holds at every node.  The nodes of a tree are listed part by part,
so such a statement falls apart with the tree.
-/
import Bracework.Template.Node

namespace Bracework

/-- A rule holds at every node of a list. -/
def Everywhere (rule : Node → Bool) (nodes : List Node) : Prop := ∀ n ∈ nodes, rule n = true

namespace Everywhere

variable {rule : Node → Bool}

theorem nil : Everywhere rule [] := List.forall_mem_nil _

theorem cons_iff {n : Node} {nodes : List Node} :
    Everywhere rule (n :: nodes) ↔ rule n = true ∧ Everywhere rule nodes :=
  List.forall_mem_cons

theorem singleton_iff {n : Node} : Everywhere rule [n] ↔ rule n = true :=
  List.forall_mem_singleton

theorem append_iff {as bs : List Node} :
    Everywhere rule (as ++ bs) ↔ Everywhere rule as ∧ Everywhere rule bs :=
  List.forall_mem_append

theorem flatMap_iff {α : Type} {nodes : α → List Node} {as : List α} :
    Everywhere rule (as.flatMap nodes) ↔ ∀ a ∈ as, Everywhere rule (nodes a) :=
  List.forall_mem_flatMap

end Everywhere

/-! ## Nodes inside a tag or a curly mark -/

/-- Whether a node is of a kind that stands inside a tag or a curly mark. -/
def Node.isInline (n : Node) : Bool :=
  match n.kind with
  | .attr | .text | .mustache | .path | .subExpression => true
  | .template | .block | .element | .blockStatement | .comment => false

mutual
theorem Expression.nodes_inline : (e : Expression) → Everywhere Node.isInline e.nodes
  | .path _ => Everywhere.singleton_iff.mpr rfl
  | .literal _ => .nil
  | .sub c _ => Everywhere.cons_iff.mpr ⟨rfl, Call.nodes_inline c⟩
theorem Call.nodes_inline : (c : Call) → Everywhere Node.isInline c.nodes
  | ⟨callee, params, hash⟩ => Everywhere.append_iff.mpr
      ⟨Everywhere.append_iff.mpr ⟨Expression.nodes_inline callee, paramsNodes_inline params⟩,
        hashNodes_inline hash⟩
theorem paramsNodes_inline : (es : List Expression) → Everywhere Node.isInline (paramsNodes es)
  | [] => .nil
  | e :: es => Everywhere.append_iff.mpr ⟨Expression.nodes_inline e, paramsNodes_inline es⟩
theorem hashNodes_inline : (hash : List (String × Expression)) →
    Everywhere Node.isInline (hashNodes hash)
  | [] => .nil
  | (_, e) :: rest => Everywhere.append_iff.mpr ⟨Expression.nodes_inline e, hashNodes_inline rest⟩
end

theorem Mustache.nodes_inline (n : Mustache) : Everywhere Node.isInline n.nodes :=
  Everywhere.cons_iff.mpr ⟨rfl, n.call.nodes_inline⟩

theorem AttributePart.nodes_inline (p : AttributePart) : Everywhere Node.isInline p.nodes := by
  cases p with
  | text t => exact Everywhere.singleton_iff.mpr rfl
  | mustache n => exact n.nodes_inline

theorem Attribute.nodes_inline (a : Attribute) : Everywhere Node.isInline a.nodes := by
  refine Everywhere.cons_iff.mpr ⟨rfl, ?_⟩
  cases a.value with
  | text t => exact Everywhere.singleton_iff.mpr rfl
  | mustache n => exact n.nodes_inline
  | concat parts => exact Everywhere.flatMap_iff.mpr fun p _ => p.nodes_inline

end Bracework
