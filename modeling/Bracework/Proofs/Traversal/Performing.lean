/-
Traversal — a visitor that rewrites a tree node by node.

A visitor changes a node before it goes on to the parts that are left, down to a
number of levels that it takes from the tree.  A rewriting is defined by recursion
on the tree.  They come to the same: no change of a rewriting makes a tree larger,
so the levels suffice, and the statements that a handler has dropped are those
that the recursion passes over.
-/
import Bracework.Proofs.Traversal.Entering
import Bracework.Proofs.Traversal.Rewriting

namespace Bracework

namespace Visitor

variable {m : Type → Type} [Monad m] [LawfulMonad m]

theorem mapM_eq_pure_map {α β : Type} {f : α → m β} {g : α → β} {l : List α}
    (h : ∀ a ∈ l, f a = pure (g a)) : l.mapM f = pure (l.map g) := by
  induction l with
  | nil => exact List.mapM_nil
  | cons a l ih =>
      obtain ⟨ha, hl⟩ := List.forall_mem_cons.mp h
      simp only [List.mapM_cons, ha, ih hl, pure_bind, List.map_cons]

theorem size_le_foldr {α : Type} (size : α → Nat) {a : α} {l : List α} (h : a ∈ l) :
    size a ≤ l.foldr (fun a n => size a + n) 0 := by
  induction l with
  | nil => cases h
  | cons b l ih =>
      rw [List.foldr_cons]
      rcases List.mem_cons.mp h with rfl | h
      · omega
      · have hl := ih h
        omega

theorem statementsSize_filter_le (keeps : Statement → Bool) (ss : List Statement) :
    statementsSize (ss.filter keeps) ≤ statementsSize ss := by
  induction ss with
  | nil => exact Nat.le_refl _
  | cons s ss ih =>
      rw [List.filter_cons]
      split
      · simp only [statementsSize]
        omega
      · rw [statementsSize]
        omega

variable {r : Rewriting} {v : Visitor m}

/-- A visitor makes at every node the change that a rewriting makes there. -/
def Performs (v : Visitor m) (r : Rewriting) : Prop :=
  ∀ (k : Kind) (n : k.Node), v.enter k n = pure (r.node k n)

mutual
theorem Performs.expression (h : v.Performs r) : (e : Expression) → (depth : Nat) →
    e.size ≤ depth → v.expression depth e = pure (e.rewrite r)
  | .path p, depth + 1, _ => by
      simp only [Visitor.expression, h .path, Rewriting.node, Expression.rewrite, pure_bind]
  | .literal l, depth + 1, _ => rfl
  | .sub c s, depth + 1, hd => by
      have hc := h.call c depth (Nat.le_of_succ_le_succ hd)
      simp only [Visitor.expression, h .subExpression, Rewriting.node, Expression.rewrite, hc,
        pure_bind]
theorem Performs.call (h : v.Performs r) : (c : Call) → (depth : Nat) →
    c.size ≤ depth → v.call depth c = pure (c.rewrite r)
  | ⟨callee, params, hash⟩, depth + 1, hd => by
      rw [Call.size] at hd
      have hcallee := h.expression callee depth (by omega)
      have hparams := h.params params depth (by omega)
      have hhash := h.hash hash depth (by omega)
      simp only [Visitor.call, hcallee, hparams, hhash, Call.rewrite, pure_bind]
theorem Performs.params (h : v.Performs r) : (es : List Expression) → (depth : Nat) →
    paramsSize es ≤ depth → es.mapM (v.expression depth) = pure (rewriteParams r es)
  | [], _, _ => List.mapM_nil
  | e :: es, depth, hd => by
      rw [paramsSize] at hd
      have he := h.expression e depth (by omega)
      have hes := h.params es depth (by omega)
      simp only [List.mapM_cons, he, hes, rewriteParams, pure_bind]
theorem Performs.hash (h : v.Performs r) : (hash : List (String × Expression)) → (depth : Nat) →
    hashSize hash ≤ depth →
    (hash.mapM fun (key, e) => return (key, ← v.expression depth e)) = pure (rewriteHash r hash)
  | [], _, _ => List.mapM_nil
  | (key, e) :: rest, depth, hd => by
      rw [hashSize] at hd
      have he := h.expression e depth (by omega)
      have hrest := h.hash rest depth (by omega)
      simp only [List.mapM_cons, he, hrest, rewriteHash, pure_bind]
end

theorem Performs.mustache (h : v.Performs r) {n : Mustache} {depth : Nat} (hd : n.size ≤ depth) :
    v.mustache depth n = pure (n.rewrite r) := by
  rw [Mustache.size] at hd
  have hc := h.call n.call depth (by omega)
  simp only [Visitor.mustache, h .mustache, Rewriting.node, Mustache.rewrite, hc, pure_bind]

theorem Performs.part (h : v.Performs r) {p : AttributePart} {depth : Nat} (hd : p.size ≤ depth) :
    v.part depth p = pure (p.rewrite r) := by
  cases p with
  | text t => simp only [Visitor.part, h .text, Rewriting.node, AttributePart.rewrite, pure_bind]
  | mustache n =>
      rw [AttributePart.size] at hd
      have hsize : n.size ≤ depth := by omega
      have hn := h.mustache hsize
      simp only [Visitor.part, hn, AttributePart.rewrite, pure_bind]

theorem Performs.value (h : v.Performs r) {x : AttributeValue} {depth : Nat}
    (hd : x.size ≤ depth) : v.value depth x = pure (x.rewriteParts r) := by
  cases x with
  | text t =>
      simp only [Visitor.value, h .text, Rewriting.node, AttributeValue.rewriteParts, pure_bind]
  | mustache n =>
      rw [AttributeValue.size] at hd
      have hsize : n.size ≤ depth := by omega
      have hn := h.mustache hsize
      simp only [Visitor.value, hn, AttributeValue.rewriteParts, pure_bind]
  | concat parts =>
      rw [AttributeValue.size] at hd
      have hparts : parts.mapM (v.part depth) = pure (parts.map (AttributePart.rewrite r)) := by
        refine mapM_eq_pure_map fun p hp => h.part ?_
        have hsize := size_le_foldr AttributePart.size hp
        omega
      simp only [Visitor.value, hparts, AttributeValue.rewriteParts, pure_bind]

theorem Performs.attr (h : v.Performs r) {a : Attribute} {depth : Nat} (hd : a.size ≤ depth) :
    v.attr depth a = pure (a.rewrite r) := by
  rw [Attribute.size] at hd
  have hsize : (r.value a.value).size ≤ depth := Nat.le_trans (r.size_value a.value) (by omega)
  have hvalue := h.value hsize
  simp only [Visitor.attr, h .attr, Rewriting.node, hvalue, Attribute.rewrite,
    AttributeValue.rewrite, pure_bind]

mutual
theorem Performs.statement (h : v.Performs r) : (s : Statement) → (depth : Nat) →
    s.size ≤ depth → v.statement depth s = pure (s.rewrite r)
  | .element ⟨tag, attributes, modifiers, children, selfClosing, span⟩, depth + 1, hd => by
      rw [Statement.size, Element.size] at hd
      have hattributes : (attributes.filter r.keepsAttribute).mapM (v.attr depth) =
          pure (rewriteAttributes r attributes) := by
        refine mapM_eq_pure_map fun a ha => h.attr ?_
        have hsize := size_le_foldr Attribute.size (List.mem_filter.mp ha).1
        omega
      have hmodifiers : modifiers.mapM (v.mustache depth) =
          pure (modifiers.map (Mustache.rewrite r)) := by
        refine mapM_eq_pure_map fun n hn => h.mustache ?_
        have hsize := size_le_foldr Mustache.size hn
        omega
      have hkept := statementsSize_filter_le r.keepsStatement children
      have hchildren := h.statements children depth (by omega)
      simp only [Visitor.statement, h .element, Rewriting.node, hattributes, hmodifiers, hchildren,
        Statement.rewrite, Element.rewrite, pure_bind]
  | .text t, depth + 1, _ => by
      simp only [Visitor.statement, h .text, Rewriting.node, Statement.rewrite, pure_bind]
  | .mustache n, depth + 1, hd => by
      have hn := h.mustache (n := n) (Nat.le_of_succ_le_succ hd)
      simp only [Visitor.statement, hn, Statement.rewrite, pure_bind]
  | .block ⟨c, program, none, span⟩, depth + 1, hd => by
      rw [Statement.size, BlockStatement.size] at hd
      have hcall := h.call c depth (by omega)
      have hprogram := h.block program depth (by omega)
      simp only [Visitor.statement, h .blockStatement, Rewriting.node, hcall, hprogram,
        Statement.rewrite, BlockStatement.rewrite, rewriteInverse, pure_bind]
  | .block ⟨c, program, some inverse, span⟩, depth + 1, hd => by
      rw [Statement.size, BlockStatement.size, inverseSize] at hd
      have hcall := h.call c depth (by omega)
      have hprogram := h.block program depth (by omega)
      have hinverse := h.block inverse depth (by omega)
      simp only [Visitor.statement, h .blockStatement, Rewriting.node, hcall, hprogram, hinverse,
        Statement.rewrite, BlockStatement.rewrite, rewriteInverse, map_pure, pure_bind]
  | .comment c, depth + 1, _ => by
      simp only [Visitor.statement, h .comment, Rewriting.node, Statement.rewrite, pure_bind]
theorem Performs.block (h : v.Performs r) : (b : Block) → (depth : Nat) →
    b.size ≤ depth → v.block depth b = pure (b.rewrite r)
  | ⟨body, params⟩, depth + 1, hd => by
      have hkept := statementsSize_filter_le r.keepsStatement body
      have hbody := h.statements body depth (Nat.le_trans hkept (Nat.le_of_succ_le_succ hd))
      simp only [Visitor.block, h .block, Rewriting.node, hbody, Block.rewrite, pure_bind]
/-- The handler has already dropped the statements that do not stay. -/
theorem Performs.statements (h : v.Performs r) : (ss : List Statement) → (depth : Nat) →
    statementsSize (ss.filter r.keepsStatement) ≤ depth →
    (ss.filter r.keepsStatement).mapM (v.statement depth) = pure (rewriteStatements r ss)
  | [], _, _ => List.mapM_nil
  | s :: ss, depth, hd => by
      rw [List.filter_cons] at hd ⊢
      rw [rewriteStatements]
      split at hd
      case isTrue hkeeps =>
        rw [statementsSize] at hd
        have hs := h.statement s depth (by omega)
        have hss := h.statements ss depth (by omega)
        simp only [hkeeps, if_true, List.mapM_cons, hs, hss, pure_bind]
      case isFalse hkeeps =>
        simp only [hkeeps]
        exact h.statements ss depth hd
end

/-- A visitor that makes the changes of a rewriting node by node rewrites every template. -/
theorem Performs.traverse (h : v.Performs r) (t : Template) :
    v.traverse t = pure (t.rewrite r) := by
  have hbody := h.statements t.body
    (Template.size { t with body := t.body.filter r.keepsStatement } + Visitor.allowance)
    (Nat.le_trans (Nat.le_succ _) (Nat.le_add_right _ _))
  simp only [Visitor.traverse, h .template, Rewriting.node, hbody, Template.rewrite, pure_bind]

end Visitor

end Bracework
