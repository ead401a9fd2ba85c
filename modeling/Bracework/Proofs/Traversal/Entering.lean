/-
Traversal — a traversal does at a node what entering the node does.

A visitor is a table of handlers, but a walk uses it through `Visitor.enter`
alone: two visitors that do the same at every node walk every tree alike,
whichever of their handlers it is that does it.  So a plugin that has one handler
and a plugin that has a handler for all kinds are judged by what they do at a
node, and a walk that only looks is a loop over the list of nodes.
-/
import Bracework.Proofs.Traversal.DocumentOrder

namespace Bracework

namespace Visitor

variable {m : Type → Type} [Monad m]

/-- Two visitors do the same at every node. -/
def Agrees (v w : Visitor m) : Prop := ∀ (k : Kind) (n : k.Node), v.enter k n = w.enter k n

variable {v w : Visitor m}

theorem Agrees.expression_call (h : v.Agrees w) (depth : Nat) :
    (∀ e, v.expression depth e = w.expression depth e) ∧
      ∀ c, v.call depth c = w.call depth c := by
  induction depth with
  | zero => exact ⟨fun _ => rfl, fun _ => rfl⟩
  | succ depth ih =>
      obtain ⟨he, hc⟩ := ih
      constructor
      · intro e
        cases e with
        | path p => simp only [expression, h .path p]
        | literal l => rfl
        | sub c s => simp only [expression, h .subExpression, hc]
      · intro c
        have hexpression : v.expression depth = w.expression depth := funext he
        simp only [call, hexpression]

theorem Agrees.mustache (h : v.Agrees w) (depth : Nat) (n : Mustache) :
    v.mustache depth n = w.mustache depth n := by
  simp only [Visitor.mustache, h .mustache, (h.expression_call depth).2]

theorem Agrees.attr (h : v.Agrees w) (depth : Nat) (a : Attribute) :
    v.attr depth a = w.attr depth a := by
  have hpart : v.part depth = w.part depth := by
    funext p
    cases p with
    | text t => simp only [part, h .text]
    | mustache n => simp only [part, h.mustache]
  have hvalue : v.value depth = w.value depth := by
    funext x
    cases x with
    | text t => simp only [value, h .text]
    | mustache n => simp only [value, h.mustache]
    | concat parts => simp only [value, hpart]
  simp only [Visitor.attr, h .attr, hvalue]

theorem Agrees.statement_block (h : v.Agrees w) (depth : Nat) :
    (∀ s, v.statement depth s = w.statement depth s) ∧
      ∀ b, v.block depth b = w.block depth b := by
  induction depth with
  | zero => exact ⟨fun _ => rfl, fun _ => rfl⟩
  | succ depth ih =>
      obtain ⟨hs, hb⟩ := ih
      have hstatement : v.statement depth = w.statement depth := funext hs
      have hblock : v.block depth = w.block depth := funext hb
      constructor
      · intro s
        cases s with
        | element e =>
            have hattr : v.attr depth = w.attr depth := funext (h.attr depth)
            have hmustache : v.mustache depth = w.mustache depth := funext (h.mustache depth)
            simp only [statement, h .element, hattr, hmustache, hstatement]
        | text t => simp only [statement, h .text]
        | mustache n => simp only [statement, h.mustache]
        | block b =>
            simp only [statement, h .blockStatement, (h.expression_call depth).2, hblock]
        | comment c => simp only [statement, h .comment]
      · intro b
        simp only [block, h .block, hstatement]

theorem Agrees.traverse (h : v.Agrees w) (t : Template) : v.traverse t = w.traverse t := by
  have hstatement : ∀ depth, v.statement depth = w.statement depth := by
    intro depth
    exact funext (h.statement_block depth).1
  simp only [Visitor.traverse, h .template, hstatement]

/-- A visitor that does something at every node and changes none does it for the nodes of a
template, in document order. -/
theorem traverse_of_enter [LawfulMonad m] {act : Node → m Unit}
    (h : ∀ (k : Kind) (n : k.Node), v.enter k n = (do act ⟨k, n⟩; return n)) (t : Template) :
    v.traverse t = (do forM t.nodes act; return t) := by
  have hagrees : v.Agrees (watching act) := by
    intro k n
    rw [h, enter_watching]
  rw [hagrees.traverse]
  exact t.visit_watching act

end Visitor

end Bracework
