/-
Wire programs — what lowering can make a call of.

Lowering fails for one reason only, a callee that is no path, and whether it
does depends on the tree alone.  `Lowers` says that of every part of it: the part
succeeds under a condition, and otherwise it finds such a callee, whatever the
symbols.  The condition of a sequence is that of all its parts, so the condition
of a tree is a rule for each kind of node.  The checker has that rule for one of
the kinds.
-/
import Bracework.Compile.Compiler
import Bracework.Proofs.Validity.Rules

namespace Bracework

/-! ## The rules -/

/-- Whether the callee of a call is a path. -/
def Call.isCallable (c : Call) : Bool := c.calleeText?.isSome

/-- The rule that lowering has for a kind of node.  A mustache without arguments shows its callee
and calls nothing, unless it is a modifier, which is always called. -/
def Kind.isCallable : (k : Kind) → k.Node → Bool
  | .template, _ => true
  | .block, _ => true
  | .element, e => e.modifiers.all (·.call.isCallable)
  | .attr, _ => true
  | .text, _ => true
  | .mustache, m => m.call.isBare || m.call.isCallable
  | .blockStatement, b => b.call.isCallable
  | .comment, _ => true
  | .path, _ => true
  | .subExpression, s => s.call.isCallable

/-- Whether what a node calls can be called. -/
def Node.isCallable (n : Node) : Bool := n.kind.isCallable n.value

namespace Lowering

/-! ## Parts that succeed under a condition -/

section
variable {α β : Type} {p q : Prop}

/-- A part of the lowering succeeds if a condition holds and otherwise finds a callee that is no
path, whatever the symbols. -/
structure Lowers (x : Lowering α) (p : Prop) : Prop where
  succeeds : p → ∀ symbols, ∃ r, x.run symbols = .ok r
  fails : ¬ p → ∀ symbols, x.run symbols = .error .calleeNoPath

theorem Lowers.pure {a : α} (h : p) : Lowers (pure a) p :=
  ⟨fun _ symbols => ⟨(a, symbols), rfl⟩, fun hp => absurd h hp⟩

theorem Lowers.read (path : Path) (h : p) : Lowers (read path) p :=
  ⟨fun _ symbols => ⟨((), noteSymbol path.head symbols), rfl⟩, fun hp => absurd h hp⟩

theorem Lowers.throw (h : ¬ p) : Lowers (throw .calleeNoPath : Lowering α) p :=
  ⟨fun hp => absurd hp h, fun _ _ => rfl⟩

theorem Lowers.of_iff {x : Lowering α} (h : Lowers x p) (hq : q ↔ p) : Lowers x q :=
  ⟨fun hp => h.succeeds (hq.mp hp), fun hp => h.fails (mt hq.mpr hp)⟩

theorem Lowers.bind {x : Lowering α} {k : α → Lowering β} (hx : Lowers x p)
    (hk : ∀ a, Lowers (k a) q) : Lowers (x >>= k) (p ∧ q) := by
  by_cases hp : p
  case pos =>
    constructor
    · rintro ⟨-, hq⟩ symbols
      obtain ⟨⟨a, symbols'⟩, ha⟩ := hx.succeeds hp symbols
      rw [StateT.run_bind, ha]
      exact (hk a).succeeds hq symbols'
    · intro hpq symbols
      obtain ⟨⟨a, symbols'⟩, ha⟩ := hx.succeeds hp symbols
      rw [StateT.run_bind, ha]
      exact (hk a).fails (fun hq => hpq ⟨hp, hq⟩) symbols'
  case neg =>
    refine ⟨fun h => absurd h.1 hp, fun _ symbols => ?_⟩
    rw [StateT.run_bind, hx.fails hp symbols]
    rfl

/-- Building something from a value cannot fail. -/
theorem Lowers.map {x : Lowering α} {f : α → β} (hx : Lowers x p) :
    Lowers (x >>= fun a => Pure.pure (f a)) p :=
  (hx.bind fun _ => Lowers.pure trivial).of_iff (and_iff_left trivial).symm

theorem Lowers.mapM {f : α → Lowering β} {p : α → Prop} (h : ∀ a, Lowers (f a) (p a)) :
    (as : List α) → Lowers (as.mapM f) (∀ a ∈ as, p a)
  | [] => .pure (List.forall_mem_nil _)
  | a :: as => by
      rw [List.mapM_cons]
      exact ((h a).bind fun _ => (Lowers.mapM h as).map).of_iff List.forall_mem_cons

end

/-! ## Expressions and calls -/

mutual
theorem expression_lowers : (e : Expression) →
    Lowers (expression e) (Everywhere Node.isCallable e.nodes)
  | .path p => (Lowers.read p (Everywhere.singleton_iff.mpr rfl)).map
  | .literal _ => .pure Everywhere.nil
  | .sub c _ => (call_lowers c).of_iff Everywhere.cons_iff
theorem call_lowers : (c : Call) →
    Lowers (call c) (c.isCallable = true ∧ Everywhere Node.isCallable c.nodes)
  | ⟨.path p, params, hash⟩ => by
      refine ((Lowers.read p trivial).bind fun _ => (parameters_lowers params).bind fun _ =>
        (arguments_lowers hash).map).of_iff ?_
      have hcallee : Everywhere Node.isCallable (Expression.nodes (.path p)) :=
        Everywhere.singleton_iff.mpr rfl
      rw [Call.nodes, Everywhere.append_iff, Everywhere.append_iff]
      exact ⟨fun h => ⟨trivial, h.2.1.2, h.2.2⟩, fun h => ⟨rfl, ⟨hcallee, h.2.1⟩, h.2.2⟩⟩
  | ⟨.literal _, _, _⟩ => .throw fun h => nomatch h.1
  | ⟨.sub _ _, _, _⟩ => .throw fun h => nomatch h.1
theorem parameters_lowers : (es : List Expression) →
    Lowers (parameters es) (Everywhere Node.isCallable (paramsNodes es))
  | [] => .pure Everywhere.nil
  | e :: es =>
      ((expression_lowers e).bind fun _ => (parameters_lowers es).map).of_iff Everywhere.append_iff
theorem arguments_lowers : (hash : List (String × Expression)) →
    Lowers (arguments hash) (Everywhere Node.isCallable (hashNodes hash))
  | [] => .pure Everywhere.nil
  | (_, e) :: rest =>
      ((expression_lowers e).bind fun _ => (arguments_lowers rest).map).of_iff Everywhere.append_iff
end

/-! ## Mustaches and attributes -/

theorem mustache_lowers (m : Mustache) :
    Lowers (mustache m) (Everywhere Node.isCallable m.nodes) := by
  have hnodes : Everywhere Node.isCallable m.nodes ↔
      (m.call.isBare || m.call.isCallable) = true ∧ Everywhere Node.isCallable m.call.nodes :=
    Everywhere.cons_iff
  rw [mustache]
  split
  case isFalse h =>
    refine (call_lowers m.call).of_iff (hnodes.trans ?_)
    rw [Bool.eq_false_iff.mpr h, Bool.false_or]
  case isTrue h =>
    rw [h, Bool.true_or] at hnodes
    obtain ⟨⟨callee, params, hash⟩, trusting, span⟩ := m
    simp only [Call.isBare, Bool.and_eq_true, List.isEmpty_iff] at h
    obtain ⟨rfl, rfl⟩ := h
    refine (expression_lowers callee).of_iff (hnodes.trans ?_)
    rw [Call.nodes, paramsNodes, hashNodes, List.append_nil, List.append_nil]
    exact and_iff_right rfl

theorem part_lowers (p : AttributePart) : Lowers (part p) (Everywhere Node.isCallable p.nodes) := by
  cases p with
  | text t => exact .pure (Everywhere.singleton_iff.mpr rfl)
  | mustache m => exact mustache_lowers m

theorem attr_lowers (a : Attribute) : Lowers (attr a) (Everywhere Node.isCallable a.nodes) := by
  obtain ⟨name, v, span⟩ := a
  have hvalue : Lowers (value v) (Everywhere Node.isCallable v.nodes) := by
    cases v with
    | text t => exact .pure (Everywhere.singleton_iff.mpr rfl)
    | mustache m => exact mustache_lowers m
    | concat parts => exact (Lowers.mapM part_lowers parts).map.of_iff Everywhere.flatMap_iff
  exact hvalue.map.of_iff (Everywhere.cons_iff.trans (and_iff_right rfl))

/-- Modifiers are called, with arguments or without. -/
theorem modifiers_callable (modifiers : List Mustache) :
    (∀ m ∈ modifiers, m.call.isCallable = true ∧ Everywhere Node.isCallable m.call.nodes) ↔
      (modifiers.all (·.call.isCallable)) = true ∧
        Everywhere Node.isCallable (modifiers.flatMap Mustache.nodes) := by
  rw [Everywhere.flatMap_iff, List.all_eq_true]
  constructor
  · intro h
    refine ⟨fun m hm => (h m hm).1, fun m hm => Everywhere.cons_iff.mpr ⟨?_, (h m hm).2⟩⟩
    show (m.call.isBare || m.call.isCallable) = true
    rw [(h m hm).1, Bool.or_true]
  · rintro ⟨hcallee, hnodes⟩ m hm
    exact ⟨hcallee m hm, (Everywhere.cons_iff.mp (hnodes m hm)).2⟩

/-! ## Statements -/

mutual
theorem statement_lowers : (s : Statement) →
    Lowers (statement s) (Everywhere Node.isCallable s.nodes)
  | .text _ => .pure (Everywhere.singleton_iff.mpr rfl)
  | .comment _ => .pure (Everywhere.singleton_iff.mpr rfl)
  | .mustache m => (mustache_lowers m).map
  | .element e => element_lowers e
  | .block b => blockStatement_lowers b
theorem element_lowers : (e : Element) → Lowers (element e) (Everywhere Node.isCallable e.nodes)
  | ⟨tag, attributes, modifiers, children, selfClosing, span⟩ => by
      have hattributes := (Lowers.mapM attr_lowers attributes).of_iff Everywhere.flatMap_iff
      have hmodifiers := (Lowers.mapM (fun m : Mustache => call_lowers m.call) modifiers).of_iff
        (modifiers_callable modifiers).symm
      refine (hattributes.bind fun _ => hmodifiers.bind fun _ =>
        (statements_lowers children).map).of_iff ?_
      rw [Element.nodes, Everywhere.cons_iff, Everywhere.append_iff, Everywhere.append_iff,
        Node.isCallable, Kind.isCallable]
      tauto
theorem blockStatement_lowers : (b : BlockStatement) →
    Lowers (blockStatement b) (Everywhere Node.isCallable b.nodes)
  | ⟨c, program, inverse, span⟩ => by
      refine ((call_lowers c).bind fun _ => (block_lowers program).bind fun _ =>
        (inverseBlock_lowers inverse).map).of_iff ?_
      rw [BlockStatement.nodes, Everywhere.cons_iff, Everywhere.append_iff, Everywhere.append_iff,
        Node.isCallable, Kind.isCallable]
      tauto
theorem inverseBlock_lowers : (inverse : Option Block) →
    Lowers (inverseBlock inverse) (Everywhere Node.isCallable (inverseNodes inverse))
  | none => .pure Everywhere.nil
  | some b => (block_lowers b).map
theorem block_lowers : (b : Block) → Lowers (block b) (Everywhere Node.isCallable b.nodes)
  | ⟨body, _⟩ => (statements_lowers body).map.of_iff
      (Everywhere.cons_iff.trans (and_iff_right rfl))
theorem statements_lowers : (ss : List Statement) →
    Lowers (statements ss) (Everywhere Node.isCallable (statementsNodes ss))
  | [] => .pure Everywhere.nil
  | s :: ss =>
      ((statement_lowers s).bind fun _ => (statements_lowers ss).map).of_iff Everywhere.append_iff
end

end Lowering

/-! ## Templates -/

section
variable {m : Type → Type}

/-- A program is made of a template in which all that is called can be called. -/
theorem Template.exists_compiled {t : Template} (h : Everywhere Node.isCallable t.nodes)
    (o : ResolvedOptions m) : ∃ program, t.compiled o = .ok program := by
  have hbody := (Lowering.statements_lowers t.body).succeeds (Everywhere.cons_iff.mp h).2 t.params
  obtain ⟨⟨statements, symbols⟩, hrun⟩ := hbody
  refine ⟨⟨⟨statements, symbols⟩, o.moduleName, o.strictMode, o.metadata⟩, ?_⟩
  rw [compiled, lower, hrun]
  rfl

theorem Template.compiled_eq_error {t : Template} (h : ¬ Everywhere Node.isCallable t.nodes)
    (o : ResolvedOptions m) : t.compiled o = .error .calleeNoPath := by
  have hbody : ¬ Everywhere Node.isCallable (statementsNodes t.body) := fun hbody =>
    h (Everywhere.cons_iff.mpr ⟨rfl, hbody⟩)
  rw [compiled, lower, (Lowering.statements_lowers t.body).fails hbody t.params]
  rfl

/-- Of a template that passes the check a program is made, whatever the options, exactly if what
is called by nodes other than blocks can be called; otherwise some callee is no path. -/
theorem Template.compiled_of_validate {t : Template} (h : t.validate = .ok ())
    (o : ResolvedOptions m) :
    ((∃ program, t.compiled o = .ok program) ↔
      ∀ n ∈ t.nodes, n.kind ≠ .blockStatement → n.isCallable = true) ∧
    ((∃ program, t.compiled o = .ok program) ∨ t.compiled o = .error .calleeNoPath) := by
  have hvalid := t.validate_eq_ok.mp h
  have hblocks : Everywhere Node.isCallable t.nodes ↔
      ∀ n ∈ t.nodes, n.kind ≠ .blockStatement → n.isCallable = true := by
    refine forall₂_congr fun n hn => ⟨fun hc _ => hc, fun hc => ?_⟩
    by_cases hk : n.kind = .blockStatement
    case neg => exact hc hk
    case pos =>
      obtain ⟨kind, value⟩ := n
      dsimp only at hk
      subst hk
      exact (Bool.and_eq_true_iff.mp (hvalid _ hn)).1
  by_cases hall : Everywhere Node.isCallable t.nodes
  case pos =>
    have hprogram := exists_compiled hall o
    exact ⟨⟨fun _ => hblocks.mp hall, fun _ => hprogram⟩, .inl hprogram⟩
  case neg =>
    have herror := compiled_eq_error hall o
    refine ⟨⟨?_, fun hc => absurd (hblocks.mpr hc) hall⟩, .inr herror⟩
    rintro ⟨program, hprogram⟩
    rw [herror] at hprogram
    cases hprogram

end

/-- A template that calls in every kind of place, and shows a string. -/
def Template.calls : Template where
  body := [
    .element ⟨"p",
      [⟨"class", .concat [.mustache { call := ⟨.path ⟨"if", .none⟩, [.path ⟨"a", .none⟩], []⟩ }],
        .none⟩],
      [{ call := ⟨.path ⟨"focus", .none⟩, [], []⟩ }],
      [.mustache { call := ⟨.literal (.string "x"), [], []⟩ },
       .block ⟨⟨.path ⟨"each", .none⟩, [.sub ⟨.path ⟨"list", .none⟩, [], []⟩ .none], []⟩,
        ⟨[], ["i"]⟩, none, .none⟩], false, .none⟩]

theorem Template.compiled_of_validate_calls :
    Template.calls.validate = .ok () ∧
      ∃ program, Template.calls.compiled ({} : ResolvedOptions Id) = .ok program := by
  have hvalid : Template.calls.validate = .ok () := by decide
  have hcalls : ∀ n ∈ Template.calls.nodes, n.kind ≠ .blockStatement → n.isCallable = true := by
    decide
  exact ⟨hvalid, (compiled_of_validate hvalid ({} : ResolvedOptions Id)).1.mpr hcalls⟩

/-- A template that calls a string. -/
def Template.stringCall : Template where
  body := [.mustache { call := ⟨.path ⟨"f", .none⟩,
    [.sub ⟨.literal (.string "a"), [], []⟩ .none], []⟩ }]

/-- A call of a string passes the check, and there is no program for it. -/
theorem Template.compiled_stringCall :
    Template.stringCall.validate = .ok () ∧
      Template.stringCall.compiled ({} : ResolvedOptions Id) = .error .calleeNoPath :=
  ⟨by decide, rfl⟩

end Bracework
