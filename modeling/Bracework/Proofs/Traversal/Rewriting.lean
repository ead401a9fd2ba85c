/-
Traversal — changes of a tree that look at one node at a time.

A `Rewriting` says what becomes of a path and of the value of an attribute, and
which attributes and statements stay.  `Template.rewrite` makes these changes
everywhere, by recursion on the tree and without a visitor.  The nodes of a
rewritten tree are nodes of the tree, each rewritten, in the same order; a
rewriting that leaves every node as it is leaves the tree as it is; and two
rewritings one after the other are a third one if they do not get in each other's
way.
-/
import Bracework.Proofs.Traversal.Rules

namespace Bracework

/-- What becomes of the paths and the attribute values of a tree, and which of its attributes
and statements stay.  A value is never replaced by a larger one or by one with other nodes. -/
structure Rewriting where
  path : Path → Path
  value : AttributeValue → AttributeValue
  keepsAttribute : Attribute → Bool
  keepsStatement : Statement → Bool
  size_value : ∀ x, (value x).size ≤ x.size
  nodes_value : ∀ x, (value x).nodes.Sublist x.nodes

variable (r : Rewriting)

/-! ## Rewriting everywhere -/

mutual
def Expression.rewrite : Expression → Expression
  | .path p => .path (r.path p)
  | .literal l => .literal l
  | .sub c s => .sub c.rewrite s
termination_by structural e => e

def Call.rewrite : Call → Call
  | ⟨callee, params, hash⟩ => ⟨callee.rewrite, rewriteParams params, rewriteHash hash⟩
termination_by structural c => c

def rewriteParams : List Expression → List Expression
  | [] => []
  | e :: es => e.rewrite :: rewriteParams es
termination_by structural es => es

def rewriteHash : List (String × Expression) → List (String × Expression)
  | [] => []
  | (key, e) :: rest => (key, e.rewrite) :: rewriteHash rest
termination_by structural rest => rest
end

def Mustache.rewrite (n : Mustache) : Mustache := { n with call := n.call.rewrite r }

def AttributePart.rewrite : AttributePart → AttributePart
  | .text t => .text t
  | .mustache n => .mustache (n.rewrite r)

/-- A value with its parts rewritten, but itself as it is. -/
def AttributeValue.rewriteParts : AttributeValue → AttributeValue
  | .text t => .text t
  | .mustache n => .mustache (n.rewrite r)
  | .concat parts => .concat (parts.map (AttributePart.rewrite r))

def AttributeValue.rewrite (x : AttributeValue) : AttributeValue := (r.value x).rewriteParts r

def Attribute.rewrite (a : Attribute) : Attribute := { a with value := a.value.rewrite r }

def rewriteAttributes (as : List Attribute) : List Attribute :=
  (as.filter r.keepsAttribute).map (Attribute.rewrite r)

mutual
def Statement.rewrite : Statement → Statement
  | .element e => .element e.rewrite
  | .text t => .text t
  | .mustache n => .mustache (n.rewrite r)
  | .block b => .block b.rewrite
  | .comment c => .comment c
termination_by structural s => s

def Element.rewrite : Element → Element
  | ⟨tag, attributes, modifiers, children, selfClosing, span⟩ =>
      ⟨tag, rewriteAttributes r attributes, modifiers.map (Mustache.rewrite r),
        rewriteStatements children, selfClosing, span⟩
termination_by structural e => e

def BlockStatement.rewrite : BlockStatement → BlockStatement
  | ⟨call, program, inverse, span⟩ =>
      ⟨call.rewrite r, program.rewrite, rewriteInverse inverse, span⟩
termination_by structural b => b

def rewriteInverse : Option Block → Option Block
  | none => none
  | some b => some b.rewrite
termination_by structural b => b

def Block.rewrite : Block → Block
  | ⟨body, params⟩ => ⟨rewriteStatements body, params⟩
termination_by structural b => b

/-- The statements that stay, each rewritten. -/
def rewriteStatements : List Statement → List Statement
  | [] => []
  | s :: ss => if r.keepsStatement s then s.rewrite :: rewriteStatements ss else rewriteStatements ss
termination_by structural ss => ss
end

/-- A template with the changes made at all nodes. -/
def Template.rewrite (t : Template) : Template := { t with body := rewriteStatements r t.body }

/-! ## Rewriting one node -/

/-- A node with what it holds itself changed, and its parts left as they are. -/
def Rewriting.node : (k : Kind) → k.Node → k.Node
  | .template, t => { t with body := t.body.filter r.keepsStatement }
  | .block, b => { b with body := b.body.filter r.keepsStatement }
  | .element, e =>
      { e with
        attributes := e.attributes.filter r.keepsAttribute
        children := e.children.filter r.keepsStatement }
  | .attr, a => { a with value := r.value a.value }
  | .path, p => r.path p
  | .text, n => n
  | .mustache, n => n
  | .blockStatement, n => n
  | .comment, n => n
  | .subExpression, n => n

/-! ## The nodes of a rewritten tree -/

/-- A node with itself and all its parts rewritten. -/
def Kind.rewrite : (k : Kind) → k.Node → k.Node
  | .template, t => t.rewrite r
  | .block, b => b.rewrite r
  | .element, e => e.rewrite r
  | .attr, a => a.rewrite r
  | .text, n => n
  | .mustache, n => n.rewrite r
  | .blockStatement, b => b.rewrite r
  | .comment, n => n
  | .path, p => r.path p
  | .subExpression, s => { s with call := s.call.rewrite r }

def Node.rewrite (n : Node) : Node := ⟨n.kind, n.kind.rewrite r n.value⟩

mutual
theorem Expression.nodes_rewrite : (e : Expression) →
    (e.rewrite r).nodes = e.nodes.map (Node.rewrite r)
  | .path _ => rfl
  | .literal _ => rfl
  | .sub c s => by
      rw [Expression.rewrite, Expression.nodes, Call.nodes_rewrite c]
      rfl
theorem Call.nodes_rewrite : (c : Call) → (c.rewrite r).nodes = c.nodes.map (Node.rewrite r)
  | ⟨callee, params, hash⟩ => by
      rw [Call.rewrite, Call.nodes, Expression.nodes_rewrite callee, paramsNodes_rewrite params,
        hashNodes_rewrite hash, Call.nodes, List.map_append, List.map_append]
theorem paramsNodes_rewrite : (es : List Expression) →
    paramsNodes (rewriteParams r es) = (paramsNodes es).map (Node.rewrite r)
  | [] => rfl
  | e :: es => by
      rw [rewriteParams, paramsNodes, Expression.nodes_rewrite e, paramsNodes_rewrite es,
        paramsNodes, List.map_append]
theorem hashNodes_rewrite : (hash : List (String × Expression)) →
    hashNodes (rewriteHash r hash) = (hashNodes hash).map (Node.rewrite r)
  | [] => rfl
  | (key, e) :: rest => by
      rw [rewriteHash, hashNodes, Expression.nodes_rewrite e, hashNodes_rewrite rest, hashNodes,
        List.map_append]
end

theorem Mustache.nodes_rewrite (n : Mustache) :
    (n.rewrite r).nodes = n.nodes.map (Node.rewrite r) := by
  show _ :: (n.call.rewrite r).nodes = _
  rw [Call.nodes_rewrite]
  rfl

theorem AttributePart.nodes_rewrite (p : AttributePart) :
    (p.rewrite r).nodes = p.nodes.map (Node.rewrite r) := by
  cases p with
  | text t => rfl
  | mustache n => exact n.nodes_rewrite r

theorem AttributeValue.nodes_rewriteParts (x : AttributeValue) :
    (x.rewriteParts r).nodes = x.nodes.map (Node.rewrite r) := by
  cases x with
  | text t => rfl
  | mustache n => exact n.nodes_rewrite r
  | concat parts =>
      rw [rewriteParts, nodes, nodes, List.flatMap_map, List.map_flatMap]
      exact congrArg (parts.flatMap ·) (funext (AttributePart.nodes_rewrite r))

theorem Attribute.nodes_rewrite (a : Attribute) :
    (a.rewrite r).nodes.Sublist (a.nodes.map (Node.rewrite r)) := by
  have hvalue : (a.value.rewrite r).nodes.Sublist (a.value.nodes.map (Node.rewrite r)) := by
    rw [AttributeValue.rewrite, AttributeValue.nodes_rewriteParts]
    exact (r.nodes_value a.value).map _
  exact hvalue.cons_cons _

theorem rewriteAttributes_nodes (as : List Attribute) :
    ((rewriteAttributes r as).flatMap Attribute.nodes).Sublist
      ((as.flatMap Attribute.nodes).map (Node.rewrite r)) := by
  induction as with
  | nil => exact .slnil
  | cons a as ih =>
      rw [rewriteAttributes, List.filter_cons, List.flatMap_cons, List.map_append]
      split
      · exact (a.nodes_rewrite r).append ih
      · exact ih.trans (List.sublist_append_right _ _)

theorem modifiers_nodes_rewrite (modifiers : List Mustache) :
    (modifiers.map (Mustache.rewrite r)).flatMap Mustache.nodes =
      (modifiers.flatMap Mustache.nodes).map (Node.rewrite r) := by
  rw [List.flatMap_map, List.map_flatMap]
  exact congrArg (modifiers.flatMap ·) (funext (Mustache.nodes_rewrite r))

mutual
theorem Statement.nodes_rewrite : (s : Statement) →
    (s.rewrite r).nodes.Sublist (s.nodes.map (Node.rewrite r))
  | .element e => Element.nodes_rewrite e
  | .text _ => .refl _
  | .mustache n => by
      rw [Statement.rewrite, Statement.nodes, n.nodes_rewrite]
      exact .refl _
  | .block b => BlockStatement.nodes_rewrite b
  | .comment _ => .refl _
theorem Element.nodes_rewrite : (e : Element) →
    (e.rewrite r).nodes.Sublist (e.nodes.map (Node.rewrite r))
  | ⟨tag, attributes, modifiers, children, selfClosing, span⟩ => by
      have hattributes := rewriteAttributes_nodes r attributes
      have hmodifiers := modifiers_nodes_rewrite r modifiers
      have hchildren := statementsNodes_rewrite children
      rw [Element.rewrite, Element.nodes, Element.nodes, hmodifiers, List.map_cons, List.map_append,
        List.map_append]
      exact ((hattributes.append (.refl _)).append hchildren).cons_cons _
theorem BlockStatement.nodes_rewrite : (b : BlockStatement) →
    (b.rewrite r).nodes.Sublist (b.nodes.map (Node.rewrite r))
  | ⟨call, program, inverse, span⟩ => by
      have hprogram := Block.nodes_rewrite program
      have hinverse := inverseNodes_rewrite inverse
      rw [BlockStatement.rewrite, BlockStatement.nodes, BlockStatement.nodes, Call.nodes_rewrite,
        List.map_cons, List.map_append, List.map_append]
      exact (((List.Sublist.refl _).append hprogram).append hinverse).cons_cons _
theorem inverseNodes_rewrite : (inverse : Option Block) →
    (inverseNodes (rewriteInverse r inverse)).Sublist ((inverseNodes inverse).map (Node.rewrite r))
  | none => .slnil
  | some b => Block.nodes_rewrite b
theorem Block.nodes_rewrite : (b : Block) →
    (b.rewrite r).nodes.Sublist (b.nodes.map (Node.rewrite r))
  | ⟨body, _⟩ => (statementsNodes_rewrite body).cons_cons _
theorem statementsNodes_rewrite : (ss : List Statement) →
    (statementsNodes (rewriteStatements r ss)).Sublist
      ((statementsNodes ss).map (Node.rewrite r))
  | [] => .slnil
  | s :: ss => by
      have hs := Statement.nodes_rewrite s
      have hss := statementsNodes_rewrite ss
      rw [rewriteStatements, statementsNodes, List.map_append]
      split
      · exact hs.append hss
      · exact hss.trans (List.sublist_append_right _ _)
end

/-- The nodes of a rewritten template are nodes of the template, rewritten, in the same order. -/
theorem Template.nodes_rewrite (t : Template) :
    (t.rewrite r).nodes.Sublist (t.nodes.map (Node.rewrite r)) :=
  (statementsNodes_rewrite r t.body).cons_cons _

/-- A rule that a rewriting keeps at every node, it keeps in a tree. -/
theorem Template.everywhere_rewrite {rule : Node → Bool} {t : Template}
    (hkeeps : ∀ n : Node, rule n = true → rule (n.rewrite r) = true)
    (h : Everywhere rule t.nodes) : Everywhere rule (t.rewrite r).nodes := by
  intro n hn
  obtain ⟨n', hn', rfl⟩ := List.mem_map.mp ((t.nodes_rewrite r).subset hn)
  exact hkeeps n' (h n' hn')

/-! ## Trees that a rewriting leaves alone -/

/-- A rewriting leaves a node as it is. -/
def Rewriting.Spares (n : Node) : Prop := r.node n.kind n.value = n.value

variable {r}

mutual
theorem Expression.rewrite_of_spared : (e : Expression) → (∀ n ∈ e.nodes, r.Spares n) →
    e.rewrite r = e
  | .path p, h => congrArg Expression.path (h ⟨.path, p⟩ List.mem_cons_self)
  | .literal _, _ => rfl
  | .sub c s, h => by
      have hc := Call.rewrite_of_spared c (List.forall_mem_cons.mp h).2
      rw [Expression.rewrite, hc]
theorem Call.rewrite_of_spared : (c : Call) → (∀ n ∈ c.nodes, r.Spares n) → c.rewrite r = c
  | ⟨callee, params, hash⟩, h => by
      obtain ⟨hfront, hhash⟩ := List.forall_mem_append.mp h
      obtain ⟨hcallee, hparams⟩ := List.forall_mem_append.mp hfront
      rw [Call.rewrite, Expression.rewrite_of_spared callee hcallee,
        rewriteParams_of_spared params hparams, rewriteHash_of_spared hash hhash]
theorem rewriteParams_of_spared : (es : List Expression) →
    (∀ n ∈ paramsNodes es, r.Spares n) → rewriteParams r es = es
  | [], _ => rfl
  | e :: es, h => by
      obtain ⟨he, hes⟩ := List.forall_mem_append.mp h
      rw [rewriteParams, Expression.rewrite_of_spared e he, rewriteParams_of_spared es hes]
theorem rewriteHash_of_spared : (hash : List (String × Expression)) →
    (∀ n ∈ hashNodes hash, r.Spares n) → rewriteHash r hash = hash
  | [], _ => rfl
  | (key, e) :: rest, h => by
      obtain ⟨he, hrest⟩ := List.forall_mem_append.mp h
      rw [rewriteHash, Expression.rewrite_of_spared e he, rewriteHash_of_spared rest hrest]
end

theorem Mustache.rewrite_of_spared {n : Mustache} (h : ∀ x ∈ n.nodes, r.Spares x) :
    n.rewrite r = n := by
  rw [rewrite, n.call.rewrite_of_spared (List.forall_mem_cons.mp h).2]

theorem map_eq_self_of_spared {α : Type} {f : α → α} {nodes : α → List Node}
    (hf : ∀ a, (∀ n ∈ nodes a, r.Spares n) → f a = a) {l : List α}
    (h : ∀ n ∈ l.flatMap nodes, r.Spares n) : l.map f = l := by
  have hmap : l.map f = l.map id :=
    List.map_congr_left fun a ha => hf a (List.forall_mem_flatMap.mp h a ha)
  rw [hmap, List.map_id]

theorem AttributePart.rewrite_of_spared {p : AttributePart} (h : ∀ n ∈ p.nodes, r.Spares n) :
    p.rewrite r = p := by
  cases p with
  | text t => rfl
  | mustache n => rw [rewrite, Mustache.rewrite_of_spared h]

theorem Attribute.rewrite_of_spared {a : Attribute} (h : ∀ n ∈ a.nodes, r.Spares n) :
    a.rewrite r = a := by
  obtain ⟨hself, hparts⟩ := List.forall_mem_cons.mp h
  have hvalue : r.value a.value = a.value := congrArg Attribute.value hself
  have hinside : a.value.rewriteParts r = a.value := by
    obtain ⟨name, value, span⟩ := a
    cases value with
    | text t => rfl
    | mustache n => rw [AttributeValue.rewriteParts, Mustache.rewrite_of_spared hparts]
    | concat parts =>
        rw [AttributeValue.rewriteParts,
          map_eq_self_of_spared (fun _ => AttributePart.rewrite_of_spared) hparts]
  rw [rewrite, AttributeValue.rewrite, hvalue, hinside]

mutual
theorem Statement.rewrite_of_spared : (s : Statement) → (∀ n ∈ s.nodes, r.Spares n) →
    s.rewrite r = s
  | .element e, h => by rw [Statement.rewrite, Element.rewrite_of_spared e h]
  | .text _, _ => rfl
  | .mustache n, h => by rw [Statement.rewrite, Mustache.rewrite_of_spared h]
  | .block b, h => by rw [Statement.rewrite, BlockStatement.rewrite_of_spared b h]
  | .comment _, _ => rfl
theorem Element.rewrite_of_spared : (e : Element) → (∀ n ∈ e.nodes, r.Spares n) →
    e.rewrite r = e
  | ⟨tag, attributes, modifiers, children, selfClosing, span⟩, h => by
      obtain ⟨hself, hparts⟩ := List.forall_mem_cons.mp h
      obtain ⟨hfront, hchildren⟩ := List.forall_mem_append.mp hparts
      obtain ⟨hattributes, hmodifiers⟩ := List.forall_mem_append.mp hfront
      have hkept : attributes.filter r.keepsAttribute = attributes :=
        congrArg Element.attributes hself
      have hbody : children.filter r.keepsStatement = children := congrArg Element.children hself
      rw [Element.rewrite, rewriteAttributes, hkept,
        map_eq_self_of_spared (fun _ => Attribute.rewrite_of_spared) hattributes,
        map_eq_self_of_spared (fun _ => Mustache.rewrite_of_spared) hmodifiers,
        rewriteStatements_of_spared children (List.filter_eq_self.mp hbody) hchildren]
theorem BlockStatement.rewrite_of_spared : (b : BlockStatement) → (∀ n ∈ b.nodes, r.Spares n) →
    b.rewrite r = b
  | ⟨call, program, inverse, span⟩, h => by
      obtain ⟨-, hparts⟩ := List.forall_mem_cons.mp h
      obtain ⟨hfront, hinverse⟩ := List.forall_mem_append.mp hparts
      obtain ⟨hcall, hprogram⟩ := List.forall_mem_append.mp hfront
      rw [BlockStatement.rewrite, call.rewrite_of_spared hcall,
        Block.rewrite_of_spared program hprogram, rewriteInverse_of_spared inverse hinverse]
theorem rewriteInverse_of_spared : (inverse : Option Block) →
    (∀ n ∈ inverseNodes inverse, r.Spares n) → rewriteInverse r inverse = inverse
  | none, _ => rfl
  | some b, h => by rw [rewriteInverse, Block.rewrite_of_spared b h]
theorem Block.rewrite_of_spared : (b : Block) → (∀ n ∈ b.nodes, r.Spares n) → b.rewrite r = b
  | ⟨body, _⟩, h => by
      obtain ⟨hself, hbody⟩ := List.forall_mem_cons.mp h
      have hkept : body.filter r.keepsStatement = body := congrArg Block.body hself
      rw [Block.rewrite, rewriteStatements_of_spared body (List.filter_eq_self.mp hkept) hbody]
theorem rewriteStatements_of_spared : (ss : List Statement) →
    (∀ s ∈ ss, r.keepsStatement s = true) → (∀ n ∈ statementsNodes ss, r.Spares n) →
    rewriteStatements r ss = ss
  | [], _, _ => rfl
  | s :: ss, hkept, h => by
      obtain ⟨hs, hss⟩ := List.forall_mem_cons.mp hkept
      obtain ⟨hnodes, hrest⟩ := List.forall_mem_append.mp h
      rw [rewriteStatements, if_pos hs, Statement.rewrite_of_spared s hnodes,
        rewriteStatements_of_spared ss hss hrest]
end

/-- A rewriting that leaves every node of a template as it is leaves the template as it is. -/
theorem Template.rewrite_of_spared {t : Template} (h : ∀ n ∈ t.nodes, r.Spares n) :
    t.rewrite r = t := by
  obtain ⟨hself, hbody⟩ := List.forall_mem_cons.mp h
  have hkept : t.body.filter r.keepsStatement = t.body := congrArg Template.body hself
  rw [rewrite, rewriteStatements_of_spared t.body (List.filter_eq_self.mp hkept) hbody]

/-! ## One rewriting after another -/

/-- Two rewritings one after the other make the changes of a third: the second finds in a
rewritten node what it would find in the node itself. -/
structure Rewriting.Composes (r r' r'' : Rewriting) : Prop where
  path : ∀ p, r'.path (r.path p) = r''.path p
  value : ∀ x, r'.value (r.value x) = r''.value x
  valueInside : ∀ x, r'.value (x.rewriteParts r) = (r'.value x).rewriteParts r
  keepsAttribute : ∀ a, (r.keepsAttribute a && r'.keepsAttribute (a.rewrite r)) =
    r''.keepsAttribute a
  keepsStatement : ∀ s, (r.keepsStatement s && r'.keepsStatement (s.rewrite r)) =
    r''.keepsStatement s

variable {r' r'' : Rewriting}

mutual
theorem Expression.rewrite_rewrite (h : r.Composes r' r'') : (e : Expression) →
    (e.rewrite r).rewrite r' = e.rewrite r''
  | .path p => by rw [Expression.rewrite, Expression.rewrite, h.path, Expression.rewrite]
  | .literal _ => rfl
  | .sub c s => by
      rw [Expression.rewrite, Expression.rewrite, Call.rewrite_rewrite h c, Expression.rewrite]
theorem Call.rewrite_rewrite (h : r.Composes r' r'') : (c : Call) →
    (c.rewrite r).rewrite r' = c.rewrite r''
  | ⟨callee, params, hash⟩ => by
      rw [Call.rewrite, Call.rewrite, Expression.rewrite_rewrite h callee,
        rewriteParams_rewrite h params, rewriteHash_rewrite h hash, Call.rewrite]
theorem rewriteParams_rewrite (h : r.Composes r' r'') : (es : List Expression) →
    rewriteParams r' (rewriteParams r es) = rewriteParams r'' es
  | [] => rfl
  | e :: es => by
      rw [rewriteParams, rewriteParams, Expression.rewrite_rewrite h e,
        rewriteParams_rewrite h es, rewriteParams]
theorem rewriteHash_rewrite (h : r.Composes r' r'') : (hash : List (String × Expression)) →
    rewriteHash r' (rewriteHash r hash) = rewriteHash r'' hash
  | [] => rfl
  | (key, e) :: rest => by
      rw [rewriteHash, rewriteHash, Expression.rewrite_rewrite h e, rewriteHash_rewrite h rest,
        rewriteHash]
end

theorem Mustache.rewrite_rewrite (h : r.Composes r' r'') (n : Mustache) :
    (n.rewrite r).rewrite r' = n.rewrite r'' := by
  rw [rewrite, rewrite, Call.rewrite_rewrite h, rewrite]

theorem AttributePart.rewrite_rewrite (h : r.Composes r' r'') (p : AttributePart) :
    (p.rewrite r).rewrite r' = p.rewrite r'' := by
  cases p with
  | text t => rfl
  | mustache n => rw [rewrite, rewrite, n.rewrite_rewrite h, rewrite]

theorem AttributeValue.rewriteParts_rewriteParts (h : r.Composes r' r'') (x : AttributeValue) :
    (x.rewriteParts r).rewriteParts r' = x.rewriteParts r'' := by
  cases x with
  | text t => rfl
  | mustache n => rw [rewriteParts, rewriteParts, n.rewrite_rewrite h, rewriteParts]
  | concat parts =>
      rw [rewriteParts, rewriteParts, List.map_map, rewriteParts]
      exact congrArg concat (List.map_congr_left fun p _ => p.rewrite_rewrite h)

theorem Attribute.rewrite_rewrite (h : r.Composes r' r'') (a : Attribute) :
    (a.rewrite r).rewrite r' = a.rewrite r'' := by
  have hvalue : (a.value.rewrite r).rewrite r' = a.value.rewrite r'' := by
    rw [AttributeValue.rewrite, AttributeValue.rewrite, h.valueInside, h.value,
      AttributeValue.rewriteParts_rewriteParts h, AttributeValue.rewrite]
  rw [rewrite, rewrite, hvalue, rewrite]

theorem rewriteAttributes_rewrite (h : r.Composes r' r'') (as : List Attribute) :
    rewriteAttributes r' (rewriteAttributes r as) = rewriteAttributes r'' as := by
  rw [rewriteAttributes, rewriteAttributes, List.filter_map, List.filter_filter, List.map_map,
    rewriteAttributes]
  have hkept : (as.filter fun a =>
      (r'.keepsAttribute ∘ Attribute.rewrite r) a && r.keepsAttribute a) =
        as.filter r''.keepsAttribute := by
    refine List.filter_congr fun a _ => ?_
    rw [Bool.and_comm]
    exact h.keepsAttribute a
  rw [hkept]
  exact List.map_congr_left fun a _ => a.rewrite_rewrite h

mutual
theorem Statement.rewrite_rewrite (h : r.Composes r' r'') : (s : Statement) →
    (s.rewrite r).rewrite r' = s.rewrite r''
  | .element e => by
      rw [Statement.rewrite, Statement.rewrite, Element.rewrite_rewrite h e, Statement.rewrite]
  | .text _ => rfl
  | .mustache n => by
      rw [Statement.rewrite, Statement.rewrite, n.rewrite_rewrite h, Statement.rewrite]
  | .block b => by
      rw [Statement.rewrite, Statement.rewrite, BlockStatement.rewrite_rewrite h b,
        Statement.rewrite]
  | .comment _ => rfl
theorem Element.rewrite_rewrite (h : r.Composes r' r'') : (e : Element) →
    (e.rewrite r).rewrite r' = e.rewrite r''
  | ⟨tag, attributes, modifiers, children, selfClosing, span⟩ => by
      have hmodifiers : (modifiers.map (Mustache.rewrite r)).map (Mustache.rewrite r') =
          modifiers.map (Mustache.rewrite r'') := by
        rw [List.map_map]
        exact List.map_congr_left fun n _ => n.rewrite_rewrite h
      rw [Element.rewrite, Element.rewrite, rewriteAttributes_rewrite h, hmodifiers,
        rewriteStatements_rewrite h children, Element.rewrite]
theorem BlockStatement.rewrite_rewrite (h : r.Composes r' r'') : (b : BlockStatement) →
    (b.rewrite r).rewrite r' = b.rewrite r''
  | ⟨call, program, inverse, span⟩ => by
      rw [BlockStatement.rewrite, BlockStatement.rewrite, call.rewrite_rewrite h,
        Block.rewrite_rewrite h program, rewriteInverse_rewrite h inverse, BlockStatement.rewrite]
theorem rewriteInverse_rewrite (h : r.Composes r' r'') : (inverse : Option Block) →
    rewriteInverse r' (rewriteInverse r inverse) = rewriteInverse r'' inverse
  | none => rfl
  | some b => by rw [rewriteInverse, rewriteInverse, Block.rewrite_rewrite h b, rewriteInverse]
theorem Block.rewrite_rewrite (h : r.Composes r' r'') : (b : Block) →
    (b.rewrite r).rewrite r' = b.rewrite r''
  | ⟨body, params⟩ => by
      rw [Block.rewrite, Block.rewrite, rewriteStatements_rewrite h body, Block.rewrite]
theorem rewriteStatements_rewrite (h : r.Composes r' r'') : (ss : List Statement) →
    rewriteStatements r' (rewriteStatements r ss) = rewriteStatements r'' ss
  | [] => rfl
  | s :: ss => by
      have hkeeps := h.keepsStatement s
      have hs := Statement.rewrite_rewrite h s
      have hss := rewriteStatements_rewrite h ss
      simp only [rewriteStatements]
      rw [← hkeeps]
      cases hr : r.keepsStatement s with
      | false => exact hss
      | true =>
          simp only [if_true, rewriteStatements, Bool.true_and, hs, hss]
end

/-- A rewritten template is rewritten again as the template would be by both at once. -/
theorem Template.rewrite_rewrite (h : r.Composes r' r'') (t : Template) :
    (t.rewrite r).rewrite r' = t.rewrite r'' := by
  rw [rewrite, rewrite, rewriteStatements_rewrite h, rewrite]

end Bracework
