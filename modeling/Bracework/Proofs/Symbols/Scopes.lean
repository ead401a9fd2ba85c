/-
Symbols — what lowering lists as the symbols of each block.

`Reads` is what every part of the lowering keeps: whatever symbols it starts
from, it reads the same paths, adds their heads, and gives back the same value or
fails in the same way.  Sequences of such parts read the paths of one after those
of the other, and the parts of a node are lowered in the order in which they are
listed as nodes, so the induction is on the tree.
-/
import Bracework.Compile.Compiler
import Bracework.Proofs.Symbols.Table

namespace Bracework

/-! ## Blocks that correspond -/

mutual
/-- A lowered statement has the nested blocks of a statement, each with the parameters of that
block for its symbols. -/
inductive ScopesStatement : Statement → WireStatement → Prop
  | text {t : Text} {value : String} : ScopesStatement (.text t) (.text value)
  | comment {c : Comment} {value : String} : ScopesStatement (.comment c) (.comment value)
  | append {m : Mustache} {e : WireExpression} {trusting : Bool} :
      ScopesStatement (.mustache m) (.append e trusting)
  | element {tag wireTag : String} {attributes : List Attribute} {modifiers : List Mustache}
      {children : List Statement} {selfClosing : Bool} {span : Span}
      {wireAttributes : List WireAttribute} {wireModifiers : List WireExpression}
      {wireChildren : List WireStatement} :
      ScopesStatements children wireChildren →
      ScopesStatement (.element ⟨tag, attributes, modifiers, children, selfClosing, span⟩)
        (.element wireTag wireAttributes wireModifiers wireChildren)
  | block {c : Call} {program : Block} {inverse : Option Block} {span : Span}
      {call : WireExpression} {wireProgram : WireBlock} {wireInverse : Option WireBlock} :
      ScopesBlock program wireProgram → ScopesInverse inverse wireInverse →
      ScopesStatement (.block ⟨c, program, inverse, span⟩) (.block call wireProgram wireInverse)
/-- A lowered block has the parameters of a block for its symbols, and so do those in it. -/
inductive ScopesBlock : Block → WireBlock → Prop
  | block {body : List Statement} {params : List String} {statements : List WireStatement} :
      ScopesStatements body statements → ScopesBlock ⟨body, params⟩ ⟨statements, params⟩
inductive ScopesInverse : Option Block → Option WireBlock → Prop
  | none : ScopesInverse none none
  | some {b : Block} {w : WireBlock} : ScopesBlock b w → ScopesInverse (some b) (some w)
inductive ScopesStatements : List Statement → List WireStatement → Prop
  | nil : ScopesStatements [] []
  | cons {s : Statement} {w : WireStatement} {ss : List Statement} {ws : List WireStatement} :
      ScopesStatement s w → ScopesStatements ss ws → ScopesStatements (s :: ss) (w :: ws)
end

namespace Lowering

/-! ## Reading paths -/

section
variable {α β : Type} {ps qs : List Path} {P : α → Prop} {Q : β → Prop}

/-- Some paths are read, whatever the symbols, and a value that does not depend on them is
given back. -/
def Reads (x : Lowering α) (ps : List Path) (P : α → Prop) : Prop :=
  ∃ r : Except GenerateFault α,
    (∀ symbols, x.run symbols = r.map fun a => (a, noteAll (ps.map Path.head) symbols)) ∧
      ∀ a, r = .ok a → P a

theorem Reads.pure {a : α} (h : P a) : Reads (pure a) [] P :=
  ⟨.ok a, fun _ => rfl, fun _ ha => Except.ok.inj ha ▸ h⟩

theorem Reads.throw (fault : GenerateFault) : Reads (throw fault) ps P :=
  ⟨.error fault, fun _ => rfl, fun _ ha => nomatch ha⟩

theorem Reads.path (p : Path) : Reads (read p) [p] fun _ => True :=
  ⟨.ok (), fun _ => rfl, fun _ _ => trivial⟩

theorem Reads.bind {x : Lowering α} {k : α → Lowering β} (hx : Reads x ps P)
    (hk : ∀ a, P a → Reads (k a) qs Q) : Reads (x >>= k) (ps ++ qs) Q := by
  obtain ⟨r, hrun, hp⟩ := hx
  cases r with
  | error fault =>
      refine ⟨.error fault, fun symbols => ?_, fun _ hb => nomatch hb⟩
      rw [StateT.run_bind, hrun]
      rfl
  | ok a =>
      obtain ⟨r, hrun', hq⟩ := hk a (hp a rfl)
      refine ⟨r, fun symbols => ?_, hq⟩
      rw [StateT.run_bind, hrun, List.map_append]
      show (k a).run (noteAll (ps.map Path.head) symbols) = _
      rw [hrun', noteAll_append]

/-- Building something from a value reads nothing. -/
theorem Reads.map {x : Lowering α} {f : α → β} (hx : Reads x ps P) (h : ∀ a, P a → Q (f a)) :
    Reads (x >>= fun a => Pure.pure (f a)) ps Q := by
  have hbind := hx.bind fun a ha => Reads.pure (h a ha)
  rwa [List.append_nil] at hbind

theorem Reads.mapM {f : α → Lowering β} {paths : α → List Path}
    (h : ∀ a, Reads (f a) (paths a) fun _ => True) :
    (l : List α) → Reads (l.mapM f) (l.flatMap paths) fun _ => True
  | [] => .pure trivial
  | a :: l => by
      rw [List.mapM_cons, List.flatMap_cons]
      exact (h a).bind fun _ _ => (Reads.mapM h l).map fun _ _ => trivial

end

/-! ## Expressions and calls -/

mutual
theorem expression_reads : (e : Expression) →
    Reads (expression e) (pathsAmong e.nodes) fun _ => True
  | .path p => (Reads.path p).map fun _ _ => trivial
  | .literal _ => .pure trivial
  | .sub c _ => call_reads c
theorem call_reads : (c : Call) → Reads (call c) (pathsAmong c.nodes) fun _ => True
  | ⟨.path p, params, hash⟩ => by
      rw [Call.nodes, pathsAmong_append, pathsAmong_append, List.append_assoc]
      exact (Reads.path p).bind fun _ _ =>
        (parameters_reads params).bind fun _ _ => (arguments_reads hash).map fun _ _ => trivial
  | ⟨.literal _, _, _⟩ => .throw .calleeNoPath
  | ⟨.sub _ _, _, _⟩ => .throw .calleeNoPath
theorem parameters_reads : (es : List Expression) →
    Reads (parameters es) (pathsAmong (paramsNodes es)) fun _ => True
  | [] => .pure trivial
  | e :: es => by
      rw [paramsNodes, pathsAmong_append]
      exact (expression_reads e).bind fun _ _ => (parameters_reads es).map fun _ _ => trivial
theorem arguments_reads : (hash : List (String × Expression)) →
    Reads (arguments hash) (pathsAmong (hashNodes hash)) fun _ => True
  | [] => .pure trivial
  | (_, e) :: rest => by
      rw [hashNodes, pathsAmong_append]
      exact (expression_reads e).bind fun _ _ => (arguments_reads rest).map fun _ _ => trivial
end

/-! ## Mustaches and attributes -/

theorem mustache_reads (m : Mustache) :
    Reads (mustache m) (pathsAmong m.nodes) fun _ => True := by
  show Reads (mustache m) (pathsAmong m.call.nodes) _
  rw [mustache]
  split
  case isFalse => exact call_reads m.call
  case isTrue h =>
    obtain ⟨⟨callee, params, hash⟩, trusting, span⟩ := m
    simp only [Call.isBare, Bool.and_eq_true, List.isEmpty_iff] at h
    obtain ⟨rfl, rfl⟩ := h
    rw [Call.nodes, paramsNodes, hashNodes, List.append_nil, List.append_nil]
    exact expression_reads callee

theorem part_reads (p : AttributePart) : Reads (part p) (pathsAmong p.nodes) fun _ => True := by
  cases p with
  | text t => exact .pure trivial
  | mustache m => exact mustache_reads m

theorem attr_reads (a : Attribute) : Reads (attr a) (pathsAmong a.nodes) fun _ => True := by
  refine Reads.map (P := fun _ => True) ?_ fun _ _ => trivial
  show Reads (value a.value) (pathsAmong a.value.nodes) _
  cases a.value with
  | text t => exact .pure trivial
  | mustache m => exact mustache_reads m
  | concat parts =>
      rw [AttributeValue.nodes, pathsAmong_flatMap]
      exact (Reads.mapM part_reads parts).map fun _ _ => trivial

/-! ## Statements -/

mutual
theorem statement_reads : (s : Statement) →
    Reads (statement s) (pathsAmong s.nodes) (ScopesStatement s)
  | .text _ => .pure .text
  | .comment _ => .pure .comment
  | .mustache m => (mustache_reads m).map fun _ _ => .append
  | .element e => element_reads e
  | .block b => blockStatement_reads b
theorem element_reads : (e : Element) →
    Reads (element e) (pathsAmong e.nodes) (ScopesStatement (.element e))
  | ⟨tag, attributes, modifiers, children, selfClosing, span⟩ => by
      show Reads _ (pathsAmong (_ ++ _ ++ _)) _
      rw [pathsAmong_append, pathsAmong_append, List.append_assoc, pathsAmong_flatMap,
        pathsAmong_flatMap]
      have hmodifiers := Reads.mapM (fun m : Mustache => call_reads m.call) modifiers
      exact (Reads.mapM attr_reads attributes).bind fun _ _ => hmodifiers.bind fun _ _ =>
        (statements_reads children).map fun _ h => .element h
theorem blockStatement_reads : (b : BlockStatement) →
    Reads (blockStatement b) (pathsAmong b.nodes) (ScopesStatement (.block b))
  | ⟨c, program, inverse, span⟩ => by
      show Reads _ (pathsAmong (_ ++ _ ++ _)) _
      rw [pathsAmong_append, pathsAmong_append, List.append_assoc]
      exact (call_reads c).bind fun _ _ => (block_reads program).bind fun _ hp =>
        (inverseBlock_reads inverse).map fun _ hi => .block hp hi
theorem inverseBlock_reads : (inverse : Option Block) →
    Reads (inverseBlock inverse) (pathsAmong (inverseNodes inverse)) (ScopesInverse inverse)
  | none => .pure .none
  | some b => (block_reads b).map fun _ h => .some h
theorem block_reads : (b : Block) → Reads (block b) (pathsAmong b.nodes) (ScopesBlock b)
  | ⟨body, _⟩ => (statements_reads body).map fun _ h => .block h
theorem statements_reads : (ss : List Statement) →
    Reads (statements ss) (pathsAmong (statementsNodes ss)) (ScopesStatements ss)
  | [] => .pure .nil
  | s :: ss => by
      rw [statementsNodes, pathsAmong_append]
      exact (statement_reads s).bind fun _ h => (statements_reads ss).map fun _ hs => .cons h hs
end

end Lowering

/-- The symbols of a program are the parameters of its template and then the named arguments
that a walk meets, each where it is met first; every nested block lists its own parameters,
and the statements are the same for all symbols that lowering could start from. -/
theorem Template.compiled_symbols {m : Type → Type} {t : Template} {o : ResolvedOptions m}
    {program : CompiledTemplate} (h : t.compiled o = .ok program) :
    program.block.symbols = t.params ++
      ((((t.visitedPaths.map Path.head).filter Lowering.isArgument).eraseDups).filter
        fun head => !t.params.contains head) ∧
    ScopesStatements t.body program.block.statements ∧
    ∀ symbols, ∃ symbols',
      (Lowering.statements t.body).run symbols = .ok (program.block.statements, symbols') := by
  obtain ⟨r, hrun, hscopes⟩ := Lowering.statements_reads t.body
  rw [compiled, lower, hrun] at h
  cases r with
  | error fault => exact nomatch h
  | ok statements =>
      cases h
      refine ⟨?_, hscopes statements rfl, fun symbols => ⟨_, hrun symbols⟩⟩
      rw [visitedPaths_eq]
      exact Lowering.noteAll_eq_table ..

/-- A template that reads arguments in every kind of place, some again and again. -/
def argumentsTemplate : Template where
  params := ["@row", "n"]
  body := [
    .element ⟨"p",
      [⟨"class", .concat [.text ⟨"a ", .none⟩,
        .mustache { call := ⟨.path ⟨"@b.x", .none⟩, [], []⟩ }], .none⟩],
      [{ call := ⟨.path ⟨"on", .none⟩, [.path ⟨"@a", .none⟩], []⟩ }],
      [.mustache { call := ⟨.path ⟨"@row.id", .none⟩, [], []⟩ }], false, .none⟩,
    .block ⟨⟨.path ⟨"@b", .none⟩, [.sub ⟨.path ⟨"eq", .none⟩, [.path ⟨"n", .none⟩], []⟩ .none],
        [("k", .path ⟨"@c.y.z", .none⟩)]⟩,
      ⟨[.mustache { call := ⟨.path ⟨"@d", .none⟩, [], []⟩ }], ["@item"]⟩,
      some ⟨[.mustache { call := ⟨.path ⟨"@a.q", .none⟩, [], []⟩ }], []⟩, .none⟩]

theorem Template.compiled_symbols_arguments :
    ∃ program, argumentsTemplate.compiled ({} : ResolvedOptions Id) = .ok program ∧
      program.block.symbols = ["@row", "n", "@b", "@a", "@c", "@d"] ∧
      ScopesStatements argumentsTemplate.body program.block.statements :=
  ⟨_, rfl, rfl, (compiled_symbols (o := ({} : ResolvedOptions Id)) rfl).2.1⟩

end Bracework
