/-
Wire programs — where expressions stand, and what conditionals look like there.

A call in a program comes from a mustache, a modifier, a block or a call in
parentheses, and a read from a mustache without arguments or from an argument.
Which of these it was decides how many arguments a conditional has to have, and
the program shows it by the place at which the expression stands: `placed` lists
every expression of a program, at any depth, with its place.  Lowering keeps the
number of positional arguments, so it is enough that no node of the tree has a
wrong one; the induction is on the tree, for each place at which a part can stand.
-/
import Bracework.Proofs.Plugins.Assertions
import Bracework.Proofs.Traversal.Rules
import Bracework.Proofs.Wire.Names

namespace Bracework

/-! ## Places -/

/-- Where an expression stands in a program. -/
inductive WirePlace where
  | appended
  | attribute
  | part
  | modifier
  | block
  | argument
deriving DecidableEq, Repr

mutual
/-- An expression at a place, and the expressions in it at theirs. -/
def WireExpression.placed : WirePlace → WireExpression → List (WirePlace × WireExpression)
  | place, .get path => [(place, .get path)]
  | place, .literal value => [(place, .literal value)]
  | place, .undefined => [(place, .undefined)]
  | place, .call path params hash =>
      (place, .call path params hash) :: (wirePlaced .argument params ++ wireHashPlaced hash)
  | place, .concat parts => (place, .concat parts) :: wirePlaced .part parts
termination_by structural _ e => e

def wirePlaced : WirePlace → List WireExpression → List (WirePlace × WireExpression)
  | _, [] => []
  | place, e :: es => e.placed place ++ wirePlaced place es
termination_by structural _ es => es

def wireHashPlaced : List (String × WireExpression) → List (WirePlace × WireExpression)
  | [] => []
  | (_, e) :: rest => e.placed .argument ++ wireHashPlaced rest
termination_by structural rest => rest
end

mutual
/-- The expressions of a statement, at any depth. -/
def WireStatement.placed : WireStatement → List (WirePlace × WireExpression)
  | .text _ => []
  | .append e _ => e.placed .appended
  | .comment _ => []
  | .element _ attributes modifiers children =>
      attributes.flatMap (·.value.placed .attribute) ++ wirePlaced .modifier modifiers ++
        wireStatementsPlaced children
  | .block call program inverse =>
      call.placed .block ++ program.placed ++ wireInversePlaced inverse
termination_by structural s => s

/-- The expressions of a block, at any depth. -/
def WireBlock.placed : WireBlock → List (WirePlace × WireExpression)
  | ⟨statements, _⟩ => wireStatementsPlaced statements
termination_by structural b => b

def wireInversePlaced : Option WireBlock → List (WirePlace × WireExpression)
  | none => []
  | some b => b.placed
termination_by structural b => b

def wireStatementsPlaced : List WireStatement → List (WirePlace × WireExpression)
  | [] => []
  | s :: ss => s.placed ++ wireStatementsPlaced ss
termination_by structural ss => ss
end

theorem wirePlaced_eq_flatMap (place : WirePlace) (es : List WireExpression) :
    wirePlaced place es = es.flatMap (·.placed place) := by
  induction es with
  | nil => rfl
  | cons e es ih => rw [wirePlaced, ih, List.flatMap_cons]

theorem wireHashPlaced_eq_flatMap (hash : List (String × WireExpression)) :
    wireHashPlaced hash = hash.flatMap (·.2.placed .argument) := by
  induction hash with
  | nil => rfl
  | cons argument rest ih => rw [wireHashPlaced, ih, List.flatMap_cons]

/-! ## Conditionals at a place -/

/-- The paths of the two conditionals. -/
def Conditional (path : String) : Prop := path = "if" ∨ path = "unless"

theorem isConditional_iff {path : String} : isConditional path = true ↔ Conditional path := by
  simp only [isConditional, Conditional, Bool.or_eq_true, beq_iff_eq]

/-- The block form has one positional argument, every other form has two or three. -/
def WirePlace.Accepts (place : WirePlace) (count : Nat) : Prop :=
  (place = .block → count = 1) ∧ (place ≠ .block → count = 2 ∨ count = 3)

/-- A call of a conditional has as many positional arguments as its place asks for, and only an
argument may read a path of that name. -/
def WirePlace.Suits (place : WirePlace) : WireExpression → Prop
  | .get path => Conditional path → place = .argument
  | .literal _ => True
  | .undefined => True
  | .call path params _ => Conditional path → place.Accepts params.length
  | .concat _ => True

/-- Conditionals are as their places ask for. -/
def Suited (placed : List (WirePlace × WireExpression)) : Prop := ∀ x ∈ placed, x.1.Suits x.2

namespace Suited

variable {as bs : List (WirePlace × WireExpression)}

theorem nil : Suited [] := List.forall_mem_nil _

theorem cons {place : WirePlace} {e : WireExpression} (h : place.Suits e) (hs : Suited as) :
    Suited ((place, e) :: as) := List.forall_mem_cons.mpr ⟨h, hs⟩

theorem append (h : Suited as) (h' : Suited bs) : Suited (as ++ bs) :=
  List.forall_mem_append.mpr ⟨h, h'⟩

theorem flatMap {α : Type} {placed : α → List (WirePlace × WireExpression)} {l : List α}
    (h : ∀ a ∈ l, Suited (placed a)) : Suited (l.flatMap placed) :=
  List.forall_mem_flatMap.mpr h

theorem literal (place : WirePlace) (l : Literal) : Suited ((Lowering.literal l).placed place) := by
  cases l with
  | string | number | boolean | null | undefined => exact .cons trivial .nil

end Suited

/-! ## Nodes without a complaint -/

/-- Whether a node, if it is a conditional, has as many arguments as its kind asks for. -/
def Node.isWellCounted (n : Node) : Bool := (n.kind.conditionalComplaint? n.value).isNone

theorem Call.everywhere_callee {rule : Node → Bool} {c : Call} (h : Everywhere rule c.nodes) :
    Everywhere rule c.callee.nodes := by
  obtain ⟨callee, params, hash⟩ := c
  obtain ⟨hfront, -⟩ := Everywhere.append_iff.mp h
  exact (Everywhere.append_iff.mp hfront).1

theorem Call.accepts_of_complaint? {c : Call} {span : Span} {text : String} {place : WirePlace}
    (h : (c.complaint? span).isNone = true) (hplace : place ≠ .block)
    (hcallee : c.calleeText? = some text) (htext : Conditional text) :
    place.Accepts c.params.length := by
  rw [complaint?, hcallee, Option.isNone_iff_eq_none] at h
  dsimp only at h
  rw [isConditional_iff.mpr htext] at h
  split at h
  case isTrue => cases h
  case isFalse hcount =>
    refine ⟨fun hblock => absurd hblock hplace, fun _ => ?_⟩
    simp only [Bool.true_and, Bool.not_eq_true', Bool.not_eq_false, Bool.and_eq_true,
      decide_eq_true_eq] at hcount
    omega

theorem BlockStatement.accepts_of_complaint? {b : BlockStatement} {text : String}
    (h : b.complaint?.isNone = true) (hcallee : b.call.calleeText? = some text)
    (htext : Conditional text) : WirePlace.block.Accepts b.call.params.length := by
  rw [complaint?, hcallee, Option.isNone_iff_eq_none] at h
  dsimp only at h
  rw [isConditional_iff.mpr htext] at h
  split at h
  case isTrue => cases h
  case isFalse hcount =>
    refine ⟨fun _ => ?_, fun hblock => absurd rfl hblock⟩
    simpa using hcount

namespace Lowering

/-- If every part gives back what has a property, so does a sequence of them. -/
theorem Gives.all {α β : Type} {f : α → Lowering β} {P : β → Prop} :
    (as : List α) → (∀ a ∈ as, Gives (f a) P) → Gives (as.mapM f) fun bs => ∀ b ∈ bs, P b
  | [], _ => .pure (List.forall_mem_nil _)
  | a :: as, h => by
      obtain ⟨ha, has⟩ := List.forall_mem_cons.mp h
      rw [List.mapM_cons]
      exact ha.bind fun b hb => (Gives.all as has).map fun bs hbs =>
        List.forall_mem_cons.mpr ⟨hb, hbs⟩

/-! ## Expressions and calls -/

mutual
theorem expression_suited : (e : Expression) → (place : WirePlace) → place ≠ .block →
    (∀ text, e.pathText? = some text → Conditional text → place = .argument) →
    Everywhere Node.isWellCounted e.nodes →
    Gives (expression e) fun w => Suited (w.placed place)
  | .path p, _, _, hread, _ => (Gives.read p).map fun _ _ => .cons (hread p.text rfl) .nil
  | .literal l, place, _, _, _ => .pure (.literal place l)
  | .sub c s, place, hplace, _, h => by
      obtain ⟨hself, hparts⟩ := Everywhere.cons_iff.mp h
      exact call_suited c place (fun _ => Call.accepts_of_complaint? hself hplace) hparts
theorem call_suited : (c : Call) → (place : WirePlace) →
    (∀ text, c.calleeText? = some text → Conditional text → place.Accepts c.params.length) →
    Everywhere Node.isWellCounted c.nodes → Gives (call c) fun w => Suited (w.placed place)
  | ⟨.path p, params, hash⟩, place, hcount, h => by
      obtain ⟨hfront, hhash⟩ := Everywhere.append_iff.mp h
      obtain ⟨-, hparams⟩ := Everywhere.append_iff.mp hfront
      refine (Gives.read p).bind fun _ _ => (parameters_suited params hparams).bind
        fun ws hws => (arguments_suited hash hhash).map fun rest hrest => ?_
      obtain ⟨hlength, hws⟩ := hws
      refine .cons ?_ (.append hws ?_)
      · show Conditional p.text → place.Accepts ws.length
        rw [hlength]
        exact hcount p.text rfl
      · rw [wireHashPlaced_eq_flatMap]
        exact .flatMap fun argument ha => hrest argument (Named.mem_of_mem_ofPairs ha)
  | ⟨.literal _, _, _⟩, _, _, _ => .throw .calleeNoPath
  | ⟨.sub _ _, _, _⟩, _, _, _ => .throw .calleeNoPath
theorem parameters_suited : (es : List Expression) →
    Everywhere Node.isWellCounted (paramsNodes es) →
    Gives (parameters es) fun ws => ws.length = es.length ∧ Suited (wirePlaced .argument ws)
  | [], _ => .pure ⟨rfl, .nil⟩
  | e :: es, h => by
      obtain ⟨he, hes⟩ := Everywhere.append_iff.mp h
      refine (expression_suited e .argument nofun (fun _ _ _ => rfl) he).bind
        fun w hw => (parameters_suited es hes).map fun ws hws => ?_
      obtain ⟨hlength, hws⟩ := hws
      exact ⟨congrArg (· + 1) hlength, .append hw hws⟩
theorem arguments_suited : (hash : List (String × Expression)) →
    Everywhere Node.isWellCounted (hashNodes hash) →
    Gives (arguments hash) fun ws => ∀ argument ∈ ws, Suited (argument.2.placed .argument)
  | [], _ => .pure (List.forall_mem_nil _)
  | (key, e) :: rest, h => by
      obtain ⟨he, hrest⟩ := Everywhere.append_iff.mp h
      refine (expression_suited e .argument nofun (fun _ _ _ => rfl) he).bind
        fun w hw => (arguments_suited rest hrest).map fun ws hws => ?_
      exact List.forall_mem_cons.mpr ⟨hw, hws⟩
end

/-! ## Mustaches and attributes -/

/-- A mustache without arguments has no positional one, so its callee is no conditional. -/
theorem mustache_suited (m : Mustache) (place : WirePlace) (hplace : place ≠ .block)
    (h : Everywhere Node.isWellCounted m.nodes) :
    Gives (mustache m) fun w => Suited (w.placed place) := by
  obtain ⟨hself, hparts⟩ := Everywhere.cons_iff.mp h
  have hcount : ∀ text, m.call.calleeText? = some text → Conditional text →
      place.Accepts m.call.params.length := fun _ => Call.accepts_of_complaint? hself hplace
  rw [mustache]
  split
  case isFalse => exact call_suited m.call place hcount hparts
  case isTrue hbare =>
    have hnone : m.call.params = [] := List.isEmpty_iff.mp (Bool.and_eq_true_iff.mp hbare).1
    have hcallee := Call.everywhere_callee hparts
    refine expression_suited m.call.callee place hplace (fun text hpath htext => ?_) hcallee
    have haccepts := (hcount text hpath htext).2 hplace
    rw [hnone] at haccepts
    rcases haccepts with h | h <;> cases h

theorem part_suited (p : AttributePart) (h : Everywhere Node.isWellCounted p.nodes) :
    Gives (part p) fun w => Suited (w.placed .part) := by
  cases p with
  | text t => exact .pure (.cons trivial .nil)
  | mustache m => exact mustache_suited m .part nofun h

theorem attr_suited (a : Attribute) (h : Everywhere Node.isWellCounted a.nodes) :
    Gives (attr a) fun w => Suited (w.value.placed .attribute) := by
  obtain ⟨name, v, span⟩ := a
  obtain ⟨-, hparts⟩ := Everywhere.cons_iff.mp h
  have hvalue : Gives (value v) fun w => Suited (w.placed .attribute) := by
    cases v with
    | text t => exact .pure (.cons trivial .nil)
    | mustache m => exact mustache_suited m .attribute nofun hparts
    | concat parts =>
        have hall := Everywhere.flatMap_iff.mp hparts
        refine (Gives.all parts fun p hp => part_suited p (hall p hp)).map fun ws hws => ?_
        refine .cons trivial ?_
        rw [wirePlaced_eq_flatMap]
        exact .flatMap hws
  exact hvalue.map fun _ hw => hw

theorem modifier_suited (m : Mustache) (h : Everywhere Node.isWellCounted m.nodes) :
    Gives (call m.call) fun w => Suited (w.placed .modifier) := by
  obtain ⟨hself, hparts⟩ := Everywhere.cons_iff.mp h
  exact call_suited m.call .modifier (fun _ => Call.accepts_of_complaint? hself nofun) hparts

/-! ## Statements -/

mutual
theorem statement_suited : (s : Statement) → Everywhere Node.isWellCounted s.nodes →
    Gives (statement s) fun w => Suited w.placed
  | .text _, _ => .pure .nil
  | .comment _, _ => .pure .nil
  | .mustache m, h => (mustache_suited m .appended nofun h).map fun _ hw => hw
  | .element e, h => element_suited e h
  | .block b, h => blockStatement_suited b h
theorem element_suited : (e : Element) → Everywhere Node.isWellCounted e.nodes →
    Gives (element e) fun w => Suited w.placed
  | ⟨tag, attributes, modifiers, children, selfClosing, span⟩, h => by
      obtain ⟨-, hparts⟩ := Everywhere.cons_iff.mp h
      obtain ⟨hfront, hchildren⟩ := Everywhere.append_iff.mp hparts
      obtain ⟨hattributes, hmodifiers⟩ := Everywhere.append_iff.mp hfront
      have hattribute := Everywhere.flatMap_iff.mp hattributes
      have hmodifier := Everywhere.flatMap_iff.mp hmodifiers
      refine (Gives.all attributes fun a ha => attr_suited a (hattribute a ha)).bind fun ws hws =>
        (Gives.all modifiers fun m hm => modifier_suited m (hmodifier m hm)).bind fun ws' hws' =>
          (statements_suited children hchildren).map fun ws'' hws'' => ?_
      refine .append (.append (.flatMap hws) ?_) hws''
      rw [wirePlaced_eq_flatMap]
      exact .flatMap hws'
theorem blockStatement_suited : (b : BlockStatement) → Everywhere Node.isWellCounted b.nodes →
    Gives (blockStatement b) fun w => Suited w.placed
  | ⟨c, program, inverse, span⟩, h => by
      obtain ⟨hself, hparts⟩ := Everywhere.cons_iff.mp h
      obtain ⟨hfront, hinverse⟩ := Everywhere.append_iff.mp hparts
      obtain ⟨hcall, hprogram⟩ := Everywhere.append_iff.mp hfront
      have hcount : ∀ text, c.calleeText? = some text → Conditional text →
          WirePlace.block.Accepts c.params.length :=
        fun _ => BlockStatement.accepts_of_complaint? hself
      refine (call_suited c .block hcount hcall).bind fun w hw =>
        (block_suited program hprogram).bind fun p hp =>
          (inverseBlock_suited inverse hinverse).map fun i hi => ?_
      exact .append (.append hw hp) hi
theorem inverseBlock_suited : (inverse : Option Block) →
    Everywhere Node.isWellCounted (inverseNodes inverse) →
    Gives (inverseBlock inverse) fun w => Suited (wireInversePlaced w)
  | none, _ => .pure .nil
  | some b, h => (block_suited b h).map fun _ hw => hw
theorem block_suited : (b : Block) → Everywhere Node.isWellCounted b.nodes →
    Gives (block b) fun w => Suited w.placed
  | ⟨body, _⟩, h => by
      obtain ⟨-, hbody⟩ := Everywhere.cons_iff.mp h
      exact (statements_suited body hbody).map fun _ hws => hws
theorem statements_suited : (ss : List Statement) →
    Everywhere Node.isWellCounted (statementsNodes ss) →
    Gives (statements ss) fun ws => Suited (wireStatementsPlaced ws)
  | [], _ => .pure .nil
  | s :: ss, h => by
      obtain ⟨hs, hss⟩ := Everywhere.append_iff.mp h
      refine (statement_suited s hs).bind fun w hw => (statements_suited ss hss).map
        fun ws hws => ?_
      exact .append hw hws
end

end Lowering

/-- A tree without a wrongly counted conditional is lowered to a program without one. -/
theorem Template.suited_of_lower {t : Template} {b : WireBlock} (h : t.lower = .ok b)
    (hcounted : Everywhere Node.isWellCounted t.nodes) : Suited b.placed := by
  obtain ⟨-, hbody⟩ := Everywhere.cons_iff.mp hcounted
  have hgives := Lowering.statements_suited t.body hbody t.params
  rw [lower] at h
  cases hrun : (Lowering.statements t.body).run t.params with
  | error fault =>
      rw [hrun] at h
      cases h
  | ok r =>
      rw [hrun] at h
      cases h
      exact hgives r.1 r.2 hrun

end Bracework
