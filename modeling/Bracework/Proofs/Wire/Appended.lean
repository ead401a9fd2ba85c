/-
Wire programs — what a program writes out.

A program writes out the expressions of its appends; `WireBlock.appended` has them
all, at any depth and in order.  Each comes from one of the mustaches that stand as
statements in the tree, and `Template.mustaches` has those in the same order.  What an
append reads or calls is settled by its mustache: the callee if that is a path, and if
the whole mustache is a call in parentheses, the callee of that call.
-/
import Bracework.Proofs.Traversal.Rewriting
import Bracework.Proofs.Wire.Names

namespace Bracework

/-! ## The appends of a program -/

/-- The path that an expression reads or calls. -/
def WireExpression.path? : WireExpression → Option String
  | .get path => some path
  | .literal _ => none
  | .undefined => none
  | .call path _ _ => some path
  | .concat _ => none

mutual
/-- The expressions that a statement writes out, at any depth. -/
def WireStatement.appended : WireStatement → List WireExpression
  | .text _ => []
  | .append e _ => [e]
  | .comment _ => []
  | .element _ _ _ children => wireStatementsAppended children
  | .block _ program inverse => program.appended ++ wireInverseAppended inverse
termination_by structural s => s

/-- The expressions that a block writes out, at any depth. -/
def WireBlock.appended : WireBlock → List WireExpression
  | ⟨statements, _⟩ => wireStatementsAppended statements
termination_by structural b => b

def wireInverseAppended : Option WireBlock → List WireExpression
  | none => []
  | some b => b.appended
termination_by structural b => b

def wireStatementsAppended : List WireStatement → List WireExpression
  | [] => []
  | s :: ss => s.appended ++ wireStatementsAppended ss
termination_by structural ss => ss
end

/-! ## The mustaches of a tree -/

mutual
/-- The mustaches that stand as statements in a statement, at any depth. -/
def Statement.mustaches : Statement → List Mustache
  | .element e => e.mustaches
  | .text _ => []
  | .mustache m => [m]
  | .block b => b.mustaches
  | .comment _ => []
termination_by structural s => s

def Element.mustaches : Element → List Mustache
  | ⟨_, _, _, children, _, _⟩ => statementsMustaches children
termination_by structural e => e

def BlockStatement.mustaches : BlockStatement → List Mustache
  | ⟨_, program, inverse, _⟩ => program.mustaches ++ inverseMustaches inverse
termination_by structural b => b

def inverseMustaches : Option Block → List Mustache
  | none => []
  | some b => b.mustaches
termination_by structural b => b

def Block.mustaches : Block → List Mustache
  | ⟨body, _⟩ => statementsMustaches body
termination_by structural b => b

def statementsMustaches : List Statement → List Mustache
  | [] => []
  | s :: ss => s.mustaches ++ statementsMustaches ss
termination_by structural ss => ss
end

/-- The mustaches that stand as statements in a template, in document order. -/
def Template.mustaches (t : Template) : List Mustache := statementsMustaches t.body

/-- The path that a mustache calls by a call in parentheses in the place of its callee. -/
def Mustache.parenthesised? (m : Mustache) : Option String :=
  match m.call.callee with
  | .path _ => none
  | .literal _ => none
  | .sub c _ => c.calleeText?

/-- The path that a mustache reads or calls. -/
def Mustache.target? (m : Mustache) : Option String := m.call.calleeText? <|> m.parenthesised?

/-! ## Lowering -/

namespace Lowering

theorem call_path (c : Call) : Gives (call c) fun w => w.path? = c.calleeText? := by
  obtain ⟨callee, params, hash⟩ := c
  cases callee with
  | path p =>
      have hparams : Gives (parameters params) fun _ => True := fun _ _ _ _ => trivial
      have hhash : Gives (arguments hash) fun _ => True := fun _ _ _ _ => trivial
      exact (Gives.read p).bind fun _ _ => hparams.bind fun _ _ => hhash.map fun _ _ => rfl
  | literal l => exact .throw .calleeNoPath
  | sub c s => exact .throw .calleeNoPath

/-- What a mustache is lowered to reads or calls its target. -/
theorem mustache_path (m : Mustache) : Gives (mustache m) fun w => w.path? = m.target? := by
  obtain ⟨⟨callee, params, hash⟩, trusting, span⟩ := m
  rw [mustache]
  split
  case isTrue =>
    cases callee with
    | path p => exact (Gives.read p).map fun _ _ => rfl
    | literal l => exact .pure (by cases l <;> rfl)
    | sub c s => exact call_path c
  case isFalse =>
    cases callee with
    | path p => exact call_path ⟨.path p, params, hash⟩
    | literal l => exact .throw .calleeNoPath
    | sub c s => exact .throw .calleeNoPath

mutual
theorem statement_appended : (s : Statement) →
    Gives (statement s) fun w => w.appended.map (·.path?) = s.mustaches.map (·.target?)
  | .text _ => .pure rfl
  | .comment _ => .pure rfl
  | .mustache m => (mustache_path m).map fun _ hw => congrArg (fun path => [path]) hw
  | .element e => element_appended e
  | .block b => blockStatement_appended b
theorem element_appended : (e : Element) →
    Gives (element e) fun w => w.appended.map (·.path?) = e.mustaches.map (·.target?)
  | ⟨tag, attributes, modifiers, children, selfClosing, span⟩ => by
      have hattributes : Gives (attributes.mapM attr) fun _ => True := fun _ _ _ _ => trivial
      have hmodifiers : Gives (modifiers.mapM fun m => call m.call) fun _ => True :=
        fun _ _ _ _ => trivial
      exact hattributes.bind fun _ _ => hmodifiers.bind fun _ _ =>
        (statements_appended children).map fun _ hws => hws
theorem blockStatement_appended : (b : BlockStatement) →
    Gives (blockStatement b) fun w => w.appended.map (·.path?) = b.mustaches.map (·.target?)
  | ⟨c, program, inverse, span⟩ => by
      refine (call_path c).bind fun w _ => (block_appended program).bind fun p hp =>
        (inverseBlock_appended inverse).map fun i hi => ?_
      rw [WireStatement.appended, BlockStatement.mustaches, List.map_append, List.map_append, hp,
        hi]
theorem inverseBlock_appended : (inverse : Option Block) →
    Gives (inverseBlock inverse) fun w =>
      (wireInverseAppended w).map (·.path?) = (inverseMustaches inverse).map (·.target?)
  | none => .pure rfl
  | some b => (block_appended b).map fun _ hw => hw
theorem block_appended : (b : Block) →
    Gives (block b) fun w => w.appended.map (·.path?) = b.mustaches.map (·.target?)
  | ⟨body, _⟩ => (statements_appended body).map fun _ hws => hws
theorem statements_appended : (ss : List Statement) →
    Gives (statements ss) fun ws =>
      (wireStatementsAppended ws).map (·.path?) = (statementsMustaches ss).map (·.target?)
  | [] => .pure rfl
  | s :: ss => by
      refine (statement_appended s).bind fun w hw => (statements_appended ss).map fun ws hws => ?_
      rw [wireStatementsAppended, statementsMustaches, List.map_append, List.map_append, hw, hws]
end

end Lowering

/-- The appends of a program read and call what the mustaches of its tree do, one for one. -/
theorem Template.appended_of_lower {t : Template} {b : WireBlock} (h : t.lower = .ok b) :
    b.appended.map (·.path?) = t.mustaches.map (·.target?) := by
  rw [lower] at h
  split at h
  case h_1 => cases h
  case h_2 statements symbols hrun =>
    cases h
    exact Lowering.statements_appended t.body t.params statements symbols hrun

/-! ## Rewriting -/

/-- Only mustaches are dropped. -/
def Rewriting.DropsMustaches (r : Rewriting) : Prop :=
  ∀ s, r.keepsStatement s = false → ∃ m, s = .mustache m

/-- The mustaches that stay, each rewritten. -/
def Rewriting.mustaches (r : Rewriting) (ms : List Mustache) : List Mustache :=
  (ms.filter fun m => r.keepsStatement (.mustache m)).map (Mustache.rewrite r)

namespace Rewriting

theorem mustaches_append (r : Rewriting) (ms ms' : List Mustache) :
    r.mustaches (ms ++ ms') = r.mustaches ms ++ r.mustaches ms' := by
  rw [mustaches, List.filter_append, List.map_append]
  rfl

/-- A statement that is dropped has no mustache that stays. -/
theorem mustaches_of_dropped {r : Rewriting} (hdrops : r.DropsMustaches) {s : Statement}
    (h : r.keepsStatement s = false) : r.mustaches s.mustaches = [] := by
  obtain ⟨m, rfl⟩ := hdrops s h
  simp only [mustaches, Statement.mustaches, List.filter_cons, h, Bool.false_eq_true, if_false,
    List.filter_nil, List.map_nil]

end Rewriting

section
variable {r : Rewriting}

mutual
theorem Statement.mustaches_rewrite (hdrops : r.DropsMustaches) : (s : Statement) →
    r.keepsStatement s = true → (s.rewrite r).mustaches = r.mustaches s.mustaches
  | .text _, _ => rfl
  | .comment _, _ => rfl
  | .mustache m, h => by
      simp only [Rewriting.mustaches, Statement.rewrite, Statement.mustaches, List.filter_cons, h,
        if_true, List.filter_nil, List.map_cons, List.map_nil]
  | .element e, _ => Element.mustaches_rewrite hdrops e
  | .block b, _ => BlockStatement.mustaches_rewrite hdrops b
theorem Element.mustaches_rewrite (hdrops : r.DropsMustaches) : (e : Element) →
    (e.rewrite r).mustaches = r.mustaches e.mustaches
  | ⟨_, _, _, children, _, _⟩ => statementsMustaches_rewrite hdrops children
theorem BlockStatement.mustaches_rewrite (hdrops : r.DropsMustaches) : (b : BlockStatement) →
    (b.rewrite r).mustaches = r.mustaches b.mustaches
  | ⟨_, program, inverse, _⟩ => by
      rw [BlockStatement.rewrite, BlockStatement.mustaches, BlockStatement.mustaches,
        r.mustaches_append, Block.mustaches_rewrite hdrops program,
        inverseMustaches_rewrite hdrops inverse]
theorem inverseMustaches_rewrite (hdrops : r.DropsMustaches) : (inverse : Option Block) →
    inverseMustaches (rewriteInverse r inverse) = r.mustaches (inverseMustaches inverse)
  | none => rfl
  | some b => Block.mustaches_rewrite hdrops b
theorem Block.mustaches_rewrite (hdrops : r.DropsMustaches) : (b : Block) →
    (b.rewrite r).mustaches = r.mustaches b.mustaches
  | ⟨body, _⟩ => statementsMustaches_rewrite hdrops body
theorem statementsMustaches_rewrite (hdrops : r.DropsMustaches) : (ss : List Statement) →
    statementsMustaches (rewriteStatements r ss) = r.mustaches (statementsMustaches ss)
  | [] => rfl
  | s :: ss => by
      rw [rewriteStatements, statementsMustaches, r.mustaches_append,
        ← statementsMustaches_rewrite hdrops ss]
      split
      case isTrue h => rw [statementsMustaches, Statement.mustaches_rewrite hdrops s h]
      case isFalse h =>
        rw [Rewriting.mustaches_of_dropped hdrops (Bool.not_eq_true _ ▸ h), List.nil_append]
end

/-- Of the mustaches of a tree those are left that the rewriting keeps. -/
theorem Template.mustaches_rewrite (hdrops : r.DropsMustaches) (t : Template) :
    (t.rewrite r).mustaches = r.mustaches t.mustaches := statementsMustaches_rewrite hdrops t.body

end

end Bracework
