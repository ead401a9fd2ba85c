/-
Traversal — a visitor that changes nothing meets the nodes in document order.

A traversal is told how many levels it may go down, and `Template.nodes` is not,
so the induction is on the tree, for every number of levels that its size does
not exceed.  Handlers run in any lawful monad: what they do is done for one node
after the other, in the order of the list.
-/
import Bracework.Template.Visitor

namespace Bracework

namespace Visitor

variable {m : Type → Type} [Monad m]

/-- The visitor that does something at every node and changes none. -/
def watching (act : Node → m Unit) : Visitor m where
  any := some fun k n => do
    act ⟨k, n⟩
    return n

theorem enter_watching (act : Node → m Unit) (k : Kind) (n : k.Node) :
    (watching act).enter k n = (do act ⟨k, n⟩; return n) := rfl

variable [LawfulMonad m] (act : Node → m Unit)

theorem mapM_watching {α : Type} {f : α → m α} {nodes : α → List Node} {size : α → Nat}
    {depth : Nat} (h : ∀ a, size a ≤ depth → f a = (do forM (nodes a) act; return a)) :
    (l : List α) → l.foldr (fun a n => size a + n) 0 ≤ depth →
      l.mapM f = (do forM (l.flatMap nodes) act; return l)
  | [], _ => by simp
  | a :: l, hl => by
      rw [List.foldr_cons] at hl
      have ha := h a (by omega)
      have hrest := mapM_watching h l (by omega)
      simp only [List.mapM_cons, List.flatMap_cons, List.forM_append, ha, hrest, bind_assoc,
        pure_bind]

/-! ## Expressions and calls -/

mutual
theorem expression_watching : (e : Expression) → (depth : Nat) → e.size ≤ depth →
    (watching act).expression depth e = (do forM e.nodes act; return e)
  | .path p, depth + 1, _ => by
      simp [expression, enter_watching, Expression.nodes]
  | .literal l, depth + 1, _ => by
      simp [expression, Expression.nodes]
  | .sub c s, depth + 1, h => by
      have hc := call_watching c depth (Nat.le_of_succ_le_succ h)
      simp only [expression, enter_watching, Expression.nodes, hc, List.forM_cons, bind_assoc,
        pure_bind]
theorem call_watching : (c : Call) → (depth : Nat) → c.size ≤ depth →
    (watching act).call depth c = (do forM c.nodes act; return c)
  | ⟨callee, params, hash⟩, depth + 1, h => by
      rw [Call.size] at h
      have hcallee := expression_watching callee depth (by omega)
      have hparams := params_watching params depth (by omega)
      have hhash := hash_watching hash depth (by omega)
      simp only [call, hcallee, hparams, hhash, Call.nodes, List.forM_append, bind_assoc, pure_bind]
theorem params_watching : (es : List Expression) → (depth : Nat) → paramsSize es ≤ depth →
    es.mapM ((watching act).expression depth) = (do forM (paramsNodes es) act; return es)
  | [], _, _ => by simp [paramsNodes]
  | e :: es, depth, h => by
      rw [paramsSize] at h
      have he := expression_watching e depth (by omega)
      have hes := params_watching es depth (by omega)
      simp only [paramsNodes, List.mapM_cons, List.forM_append, he, hes, bind_assoc, pure_bind]
theorem hash_watching : (hash : List (String × Expression)) → (depth : Nat) →
    hashSize hash ≤ depth →
    (hash.mapM fun (key, e) => return (key, ← (watching act).expression depth e)) =
      (do forM (hashNodes hash) act; return hash)
  | [], _, _ => by simp [hashNodes]
  | (key, e) :: rest, depth, h => by
      rw [hashSize] at h
      have he := expression_watching e depth (by omega)
      have hrest := hash_watching rest depth (by omega)
      simp only [hashNodes, List.mapM_cons, List.forM_append, he, hrest, bind_assoc, pure_bind]
end

/-! ## Attributes -/

theorem mustache_watching (n : Mustache) (depth : Nat) (h : n.size ≤ depth) :
    (watching act).mustache depth n = (do forM n.nodes act; return n) := by
  rw [Mustache.size] at h
  have hc := call_watching act n.call depth (by omega)
  simp only [mustache, enter_watching, Mustache.nodes, hc, List.forM_cons, bind_assoc, pure_bind]

theorem part_watching (p : AttributePart) (depth : Nat) (h : p.size ≤ depth) :
    (watching act).part depth p = (do forM p.nodes act; return p) := by
  cases p with
  | text t => simp [part, enter_watching, AttributePart.nodes]
  | mustache n =>
      rw [AttributePart.size] at h
      have hn := mustache_watching act n depth (by omega)
      simp only [part, AttributePart.nodes, hn, bind_assoc, pure_bind]

theorem value_watching (v : AttributeValue) (depth : Nat) (h : v.size ≤ depth) :
    (watching act).value depth v = (do forM v.nodes act; return v) := by
  cases v with
  | text t => simp [value, enter_watching, AttributeValue.nodes]
  | mustache n =>
      rw [AttributeValue.size] at h
      have hn := mustache_watching act n depth (by omega)
      simp only [value, AttributeValue.nodes, hn, bind_assoc, pure_bind]
  | concat parts =>
      rw [AttributeValue.size] at h
      have hparts := mapM_watching act (part_watching act · depth) parts (by omega)
      simp only [value, AttributeValue.nodes, hparts, bind_assoc, pure_bind]

theorem attr_watching (a : Attribute) (depth : Nat) (h : a.size ≤ depth) :
    (watching act).attr depth a = (do forM a.nodes act; return a) := by
  rw [Attribute.size] at h
  have hv := value_watching act a.value depth (by omega)
  simp only [attr, enter_watching, Attribute.nodes, hv, List.forM_cons, bind_assoc, pure_bind]

/-! ## Statements -/

mutual
theorem statement_watching : (s : Statement) → (depth : Nat) → s.size ≤ depth →
    (watching act).statement depth s = (do forM s.nodes act; return s)
  | .element ⟨tag, attributes, modifiers, children, selfClosing, span⟩, depth + 1, h => by
      rw [Statement.size, Element.size] at h
      have hattributes := mapM_watching act (attr_watching act · depth) attributes (by omega)
      have hmodifiers := mapM_watching act (mustache_watching act · depth) modifiers (by omega)
      have hchildren := statements_watching children depth (by omega)
      simp only [statement, enter_watching, Statement.nodes, Element.nodes, hattributes,
        hmodifiers, hchildren, List.forM_cons, List.forM_append, bind_assoc, pure_bind]
  | .text t, depth + 1, _ => by
      simp [statement, enter_watching, Statement.nodes]
  | .mustache n, depth + 1, h => by
      have hn := mustache_watching act n depth (Nat.le_of_succ_le_succ h)
      simp only [statement, Statement.nodes, hn, bind_assoc, pure_bind]
  | .block ⟨c, program, none, span⟩, depth + 1, h => by
      rw [Statement.size, BlockStatement.size] at h
      have hcall := call_watching act c depth (by omega)
      have hprogram := block_watching program depth (by omega)
      simp only [statement, enter_watching, Statement.nodes, BlockStatement.nodes, inverseNodes,
        hcall, hprogram, List.forM_cons, List.forM_append, List.forM_nil, bind_assoc, pure_bind]
  | .block ⟨c, program, some inverse, span⟩, depth + 1, h => by
      rw [Statement.size, BlockStatement.size, inverseSize] at h
      have hcall := call_watching act c depth (by omega)
      have hprogram := block_watching program depth (by omega)
      have hinverse := block_watching inverse depth (by omega)
      simp only [statement, enter_watching, Statement.nodes, BlockStatement.nodes, inverseNodes,
        hcall, hprogram, hinverse, List.forM_cons, List.forM_append, map_bind, map_pure,
        bind_assoc, pure_bind]
  | .comment c, depth + 1, _ => by
      simp [statement, enter_watching, Statement.nodes]
theorem block_watching : (b : Block) → (depth : Nat) → b.size ≤ depth →
    (watching act).block depth b = (do forM b.nodes act; return b)
  | ⟨body, params⟩, depth + 1, h => by
      have hbody := statements_watching body depth (Nat.le_of_succ_le_succ h)
      simp only [block, enter_watching, Block.nodes, hbody, List.forM_cons, bind_assoc, pure_bind]
theorem statements_watching : (ss : List Statement) → (depth : Nat) → statementsSize ss ≤ depth →
    ss.mapM ((watching act).statement depth) = (do forM (statementsNodes ss) act; return ss)
  | [], _, _ => by simp [statementsNodes]
  | s :: ss, depth, h => by
      rw [statementsSize] at h
      have hs := statement_watching s depth (by omega)
      have hss := statements_watching ss depth (by omega)
      simp only [statementsNodes, List.mapM_cons, List.forM_append, hs, hss, bind_assoc, pure_bind]
end

end Visitor

/-- A walk that changes nothing does for the nodes of a template, in document order, what it
does at a node. -/
theorem Template.visit_watching {m : Type → Type} [Monad m] [LawfulMonad m] (t : Template)
    (act : Node → m Unit) :
    (t.visit fun k n => do act ⟨k, n⟩; return n) = (do forM t.nodes act; return t) := by
  have hbody := Visitor.statements_watching act t.body (t.size + Visitor.allowance)
    (by rw [size]; omega)
  show (Visitor.watching act).traverse t = _
  simp only [Visitor.traverse, Visitor.enter_watching, nodes, hbody, List.forM_cons, bind_assoc,
    pure_bind]

/-! ## What a walk notes down -/

section
variable {α : Type} (out : Node → List α)

theorem forM_modify_append (nodes : List Node) (seen : List α) :
    ((forM nodes fun n => modify (· ++ out n) : StateM (List α) Unit).run seen).2 =
      seen ++ nodes.flatMap out := by
  induction nodes generalizing seen with
  | nil => exact (List.append_nil seen).symm
  | cons n nodes ih =>
      rw [List.forM_cons, List.flatMap_cons, ← List.append_assoc]
      exact ih (seen ++ out n)

/-- A walk that notes something down at every node has noted it in document order. -/
theorem Template.visit_noting (t : Template) :
    ((t.visit fun k n => do
      modify (· ++ out ⟨k, n⟩)
      return n : StateM (List α) Template).run []).2 = t.nodes.flatMap out := by
  rw [t.visit_watching fun n => modify (· ++ out n)]
  exact forM_modify_append out t.nodes []

end

end Bracework
