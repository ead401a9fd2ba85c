/-
Validity — the checker as a rule for each kind of node.

The checker walks a tree and stops at the first breach.  Whether it finds one
does not depend on the walk: a tree passes exactly if every node of it keeps the
rule of its kind.  The rule of a call is shared by the three kinds of node that
carry one; the lists of a call and of a tree have a case each.
-/
import Bracework.Proofs.Traversal.Rules
import Bracework.Template.Validity
import Mathlib.Tactic.Tauto

namespace Bracework

/-! ## The rules -/

/-- Whether no named argument of a call has the empty name. -/
def Call.namesArguments (c : Call) : Bool := c.hash.all fun argument => !argument.1.isEmpty

/-- Whether a value in pieces has any. -/
def AttributeValue.isInhabited : AttributeValue → Bool
  | .concat parts => !parts.isEmpty
  | _ => true

/-- The rule that the checker has for a kind of node. -/
def Kind.isValid : (k : Kind) → k.Node → Bool
  | .template, t => t.params.all isBlockParam
  | .block, b => b.params.all isBlockParam
  | .element, e => isTagName e.tag && !(e.isVoid && !e.children.isEmpty)
  | .attr, a => isAttributeName a.name && a.value.isInhabited
  | .text, _ => true
  | .mustache, m => m.call.namesArguments
  | .blockStatement, b => b.call.calleeText?.isSome && b.call.namesArguments
  | .comment, _ => true
  | .path, p => p.isValid
  | .subExpression, s => s.call.namesArguments

/-- Whether a node keeps the rule of its kind. -/
def Node.isValid (n : Node) : Bool := n.kind.isValid n.value

/-! ## Checks one after the other -/

namespace Check

instance : DecidableEq Check
  | .ok _, .ok _ => isTrue rfl
  | .error b, .error b' => decidable_of_iff (b = b') ⟨congrArg _, Except.error.inj⟩
  | .ok _, .error _ => isFalse nofun
  | .error _, .ok _ => isFalse nofun

theorem bind_eq_ok {x : Check} {y : Unit → Check} :
    (x >>= y) = .ok () ↔ x = .ok () ∧ y () = .ok () := by
  cases x with
  | ok _ => exact ⟨fun h => ⟨rfl, h⟩, fun h => h.2⟩
  | error _ => exact ⟨nofun, nofun⟩

theorem demand_eq_ok {condition : Bool} {otherwise : Breach} :
    demand condition otherwise = .ok () ↔ condition = true := by
  cases condition <;> simp [demand]

/-- A check of each of several things passes if the nodes of each keep their rules. -/
theorem forM_eq_ok {α : Type} {check : α → Check} {nodes : α → List Node}
    (h : ∀ a, check a = .ok () ↔ Everywhere Node.isValid (nodes a)) (as : List α) :
    as.forM check = .ok () ↔ Everywhere Node.isValid (as.flatMap nodes) := by
  induction as with
  | nil => exact ⟨fun _ => Everywhere.nil, fun _ => rfl⟩
  | cons a as ih =>
      rw [List.flatMap_cons, Everywhere.append_iff, ← h, ← ih]
      exact bind_eq_ok

theorem blockParams_eq_ok {kind : Kind} {params : List String} :
    checkBlockParams kind params = .ok () ↔ params.all isBlockParam = true := by
  rw [checkBlockParams, List.all_eq_true]
  split
  case h_1 param h =>
    have hparam := List.find?_some h
    refine ⟨nofun, fun hall => ?_⟩
    rw [hall param (List.mem_of_find?_eq_some h)] at hparam
    cases hparam
  case h_2 h => simpa using h

end Check

/-! ## Expressions and calls -/

mutual
theorem Expression.check_eq_ok : (e : Expression) →
    (e.check = .ok () ↔ Everywhere Node.isValid e.nodes)
  | .path p => by
      rw [Expression.check, Check.demand_eq_ok, Expression.nodes, Everywhere.singleton_iff]
      rfl
  | .literal _ => ⟨fun _ => Everywhere.nil, fun _ => rfl⟩
  | .sub c _ => by
      rw [Expression.check, Call.check_eq_ok c, Expression.nodes, Everywhere.cons_iff]
      rfl
theorem Call.check_eq_ok : (c : Call) →
    (c.check = .ok () ↔ c.namesArguments = true ∧ Everywhere Node.isValid c.nodes)
  | ⟨callee, params, hash⟩ => by
      rw [Call.check, Check.bind_eq_ok, Check.bind_eq_ok, Expression.check_eq_ok callee,
        checkParams_eq_ok params, checkHash_eq_ok hash, Call.nodes, Everywhere.append_iff,
        Everywhere.append_iff, Call.namesArguments]
      tauto
theorem checkParams_eq_ok : (es : List Expression) →
    (checkParams es = .ok () ↔ Everywhere Node.isValid (paramsNodes es))
  | [] => ⟨fun _ => Everywhere.nil, fun _ => rfl⟩
  | e :: es => by
      rw [checkParams, Check.bind_eq_ok, Expression.check_eq_ok e, checkParams_eq_ok es,
        paramsNodes, Everywhere.append_iff]
theorem checkHash_eq_ok : (hash : List (String × Expression)) →
    (checkHash hash = .ok () ↔
      (hash.all fun argument => !argument.1.isEmpty) = true ∧
        Everywhere Node.isValid (hashNodes hash))
  | [] => ⟨fun _ => ⟨rfl, Everywhere.nil⟩, fun _ => rfl⟩
  | (key, e) :: rest => by
      rw [checkHash, Check.bind_eq_ok, Check.bind_eq_ok, Check.demand_eq_ok,
        Expression.check_eq_ok e, checkHash_eq_ok rest, hashNodes, Everywhere.append_iff,
        List.all_cons, Bool.and_eq_true]
      tauto
end

/-! ## Attributes -/

theorem Mustache.check_eq_ok (m : Mustache) :
    m.call.check = .ok () ↔ Everywhere Node.isValid m.nodes := by
  rw [Call.check_eq_ok, nodes, Everywhere.cons_iff]
  rfl

theorem AttributePart.check_eq_ok (p : AttributePart) :
    p.check = .ok () ↔ Everywhere Node.isValid p.nodes := by
  cases p with
  | text t => exact ⟨fun _ => Everywhere.singleton_iff.mpr rfl, fun _ => rfl⟩
  | mustache m => exact m.check_eq_ok

theorem Attribute.check_eq_ok (a : Attribute) :
    a.check = .ok () ↔ Everywhere Node.isValid a.nodes := by
  obtain ⟨name, value, span⟩ := a
  rw [check, Check.bind_eq_ok, Check.demand_eq_ok, nodes, Everywhere.cons_iff, Node.isValid,
    Kind.isValid, Bool.and_eq_true, and_assoc]
  refine and_congr_right fun _ => ?_
  cases value with
  | text t => exact ⟨fun _ => ⟨rfl, Everywhere.singleton_iff.mpr rfl⟩, fun _ => rfl⟩
  | mustache m => exact m.check_eq_ok.trans ⟨fun h => ⟨rfl, h⟩, fun h => h.2⟩
  | concat parts =>
      dsimp only
      rw [Check.bind_eq_ok, Check.demand_eq_ok,
        Check.forM_eq_ok AttributePart.check_eq_ok parts]
      rfl

/-! ## The tree -/

mutual
theorem Statement.check_eq_ok : (s : Statement) →
    (s.check = .ok () ↔ Everywhere Node.isValid s.nodes)
  | .element e => Element.check_eq_ok e
  | .text _ => ⟨fun _ => Everywhere.singleton_iff.mpr rfl, fun _ => rfl⟩
  | .mustache m => m.check_eq_ok
  | .block b => BlockStatement.check_eq_ok b
  | .comment _ => ⟨fun _ => Everywhere.singleton_iff.mpr rfl, fun _ => rfl⟩
theorem Element.check_eq_ok : (e : Element) → (e.check = .ok () ↔ Everywhere Node.isValid e.nodes)
  | ⟨tag, attributes, modifiers, children, selfClosing, span⟩ => by
      rw [Element.check, Check.bind_eq_ok, Check.bind_eq_ok, Check.bind_eq_ok, Check.bind_eq_ok,
        Check.demand_eq_ok, Check.demand_eq_ok,
        Check.forM_eq_ok Attribute.check_eq_ok attributes,
        Check.forM_eq_ok Mustache.check_eq_ok modifiers, checkStatements_eq_ok children,
        Element.nodes, Everywhere.cons_iff, Everywhere.append_iff, Everywhere.append_iff,
        Node.isValid, Kind.isValid, Bool.and_eq_true, Element.isVoid]
      tauto
theorem BlockStatement.check_eq_ok : (b : BlockStatement) →
    (b.check = .ok () ↔ Everywhere Node.isValid b.nodes)
  | ⟨call, program, inverse, span⟩ => by
      rw [BlockStatement.check, Check.bind_eq_ok, Check.bind_eq_ok, Check.bind_eq_ok,
        Check.demand_eq_ok, Call.check_eq_ok call, Block.check_eq_ok program,
        checkInverse_eq_ok inverse, BlockStatement.nodes, Everywhere.cons_iff,
        Everywhere.append_iff, Everywhere.append_iff, Node.isValid, Kind.isValid, Bool.and_eq_true]
      tauto
theorem checkInverse_eq_ok : (inverse : Option Block) →
    (checkInverse inverse = .ok () ↔ Everywhere Node.isValid (inverseNodes inverse))
  | none => ⟨fun _ => Everywhere.nil, fun _ => rfl⟩
  | some b => Block.check_eq_ok b
theorem Block.check_eq_ok : (b : Block) → (b.check = .ok () ↔ Everywhere Node.isValid b.nodes)
  | ⟨body, params⟩ => by
      rw [Block.check, Check.bind_eq_ok, Check.blockParams_eq_ok, checkStatements_eq_ok body,
        Block.nodes, Everywhere.cons_iff]
      rfl
theorem checkStatements_eq_ok : (ss : List Statement) →
    (checkStatements ss = .ok () ↔ Everywhere Node.isValid (statementsNodes ss))
  | [] => ⟨fun _ => Everywhere.nil, fun _ => rfl⟩
  | s :: ss => by
      rw [checkStatements, Check.bind_eq_ok, Statement.check_eq_ok s, checkStatements_eq_ok ss,
        statementsNodes, Everywhere.append_iff]
end

/-- A template passes the check exactly if every node of it keeps the rule of its kind. -/
theorem Template.validate_eq_ok (t : Template) :
    t.validate = .ok () ↔ Everywhere Node.isValid t.nodes := by
  rw [validate, Check.bind_eq_ok, Check.blockParams_eq_ok, checkStatements_eq_ok, nodes,
    Everywhere.cons_iff]
  rfl

end Bracework
