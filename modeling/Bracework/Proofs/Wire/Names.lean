/-
Wire programs — where the names of a program come from.

A program names things in three ways: a block lists symbols, a read says what it
gets, and a call says what it calls.  `WireBlock.names` collects all of them, at
any depth, with a path standing for its head.  Lowering makes up no name: each is
the head of a path of the tree or a parameter of one of its blocks.  That is said
of every part of the lowering by what it gives back, whatever the symbols are,
and the induction is on the tree.
-/
import Bracework.Proofs.Symbols.Scopes

namespace Bracework

/-! ## The names of a program -/

/-- What stands before the first dot of a path. -/
def headOfPath (path : String) : String := String.ofList (path.toList.takeWhile (· != '.'))

mutual
/-- The heads of the paths that an expression reads or calls. -/
def WireExpression.heads : WireExpression → List String
  | .get path => [headOfPath path]
  | .literal _ => []
  | .undefined => []
  | .call path params hash => headOfPath path :: (wireParamsHeads params ++ wireHashHeads hash)
  | .concat parts => wireParamsHeads parts
termination_by structural e => e

def wireParamsHeads : List WireExpression → List String
  | [] => []
  | e :: es => e.heads ++ wireParamsHeads es
termination_by structural es => es

def wireHashHeads : List (String × WireExpression) → List String
  | [] => []
  | (_, e) :: rest => e.heads ++ wireHashHeads rest
termination_by structural rest => rest
end

mutual
/-- The heads of the paths in a statement and the symbols of the blocks in it. -/
def WireStatement.names : WireStatement → List String
  | .text _ => []
  | .append e _ => e.heads
  | .comment _ => []
  | .element _ attributes modifiers children =>
      attributes.flatMap (·.value.heads) ++ modifiers.flatMap WireExpression.heads ++
        wireStatementsNames children
  | .block call program inverse => call.heads ++ program.names ++ wireInverseNames inverse
termination_by structural s => s

/-- The symbols of a block and of the blocks in it, and the heads of the paths in it. -/
def WireBlock.names : WireBlock → List String
  | ⟨statements, symbols⟩ => symbols ++ wireStatementsNames statements
termination_by structural b => b

def wireInverseNames : Option WireBlock → List String
  | none => []
  | some b => b.names
termination_by structural b => b

def wireStatementsNames : List WireStatement → List String
  | [] => []
  | s :: ss => s.names ++ wireStatementsNames ss
termination_by structural ss => ss
end

theorem wireParamsHeads_eq_flatMap (es : List WireExpression) :
    wireParamsHeads es = es.flatMap WireExpression.heads := by
  induction es with
  | nil => rfl
  | cons e es ih => rw [wireParamsHeads, ih, List.flatMap_cons]

theorem wireHashHeads_eq_flatMap (hash : List (String × WireExpression)) :
    wireHashHeads hash = hash.flatMap (·.2.heads) := by
  induction hash with
  | nil => rfl
  | cons argument rest ih => rw [wireHashHeads, ih, List.flatMap_cons]

/-! ## The names of a tree -/

/-- The names that a node has of its own: the head of a path, the parameters of a block. -/
def Node.names : Node → List String
  | ⟨.path, p⟩ => [p.head]
  | ⟨.block, b⟩ => b.params
  | ⟨.template, t⟩ => t.params
  | _ => []

/-- The names among some nodes. -/
def namesAmong (nodes : List Node) : List String := nodes.flatMap Node.names

theorem namesAmong_append (as bs : List Node) :
    namesAmong (as ++ bs) = namesAmong as ++ namesAmong bs := List.flatMap_append

/-- Names of some nodes and of others are names of both. -/
theorem append_subset_namesAmong {as bs : List Node} {names names' : List String}
    (h : names ⊆ namesAmong as) (h' : names' ⊆ namesAmong bs) :
    names ++ names' ⊆ namesAmong (as ++ bs) := by
  rw [namesAmong_append]
  exact List.append_subset.mpr
    ⟨List.subset_append_of_subset_left _ h, List.subset_append_of_subset_right _ h'⟩

/-- The head of a path is one of its names, and a path has no other. -/
theorem namesAmong_pathsAmong (nodes : List Node) :
    (pathsAmong nodes).map Path.head ⊆ namesAmong nodes := by
  intro name h
  obtain ⟨p, hp, rfl⟩ := List.mem_map.mp h
  obtain ⟨⟨kind, value⟩, hn, hpath⟩ := List.mem_flatMap.mp hp
  refine List.mem_flatMap.mpr ⟨_, hn, ?_⟩
  cases kind with
  | path => exact List.mem_singleton.mpr (congrArg Path.head (List.mem_singleton.mp hpath))
  | template | block | element | attr | text | mustache | blockStatement | comment
  | subExpression => cases hpath

/-! ## Named arguments -/

/-- Of arguments with the same name one is left, and none is made up. -/
theorem wireHashHeads_ofPairs (pairs : List (String × WireExpression)) :
    wireHashHeads (Named.ofPairs pairs) ⊆ wireHashHeads pairs := by
  rw [wireHashHeads_eq_flatMap, wireHashHeads_eq_flatMap]
  intro name h
  obtain ⟨argument, hargument, hname⟩ := List.mem_flatMap.mp h
  exact List.mem_flatMap.mpr ⟨argument, Named.mem_of_mem_ofPairs hargument, hname⟩

namespace Lowering

/-! ## What a part gives back -/

section
variable {α β : Type} {P : α → Prop} {Q : β → Prop}

/-- What a part of the lowering gives back has a property, whatever the symbols. -/
def Gives (x : Lowering α) (P : α → Prop) : Prop :=
  ∀ symbols a symbols', x.run symbols = .ok (a, symbols') → P a

theorem Gives.pure {a : α} (h : P a) : Gives (pure a) P := by
  rintro symbols b symbols' ⟨⟩
  exact h

theorem Gives.throw (fault : GenerateFault) : Gives (throw fault : Lowering α) P := by
  intro symbols a symbols' h
  cases h

theorem Gives.bind {x : Lowering α} {k : α → Lowering β} (hx : Gives x P)
    (hk : ∀ a, P a → Gives (k a) Q) : Gives (x >>= k) Q := by
  intro symbols b symbols' h
  rw [StateT.run_bind] at h
  cases hrun : x.run symbols with
  | error fault =>
      rw [hrun] at h
      cases h
  | ok r =>
      rw [hrun] at h
      exact hk r.1 (hx _ _ _ hrun) _ _ _ h

theorem Gives.map {x : Lowering α} {f : α → β} (hx : Gives x P) (h : ∀ a, P a → Q (f a)) :
    Gives (x >>= fun a => Pure.pure (f a)) Q :=
  hx.bind fun a ha => .pure (h a ha)

theorem Gives.read (p : Path) : Gives (read p) fun _ => True := fun _ _ _ _ => trivial

/-- If parts make up no name, neither does a sequence of them. -/
theorem Gives.mapM {f : α → Lowering β} {out : β → List String} {nodes : α → List Node}
    (h : ∀ a, Gives (f a) fun b => out b ⊆ namesAmong (nodes a)) :
    (as : List α) →
      Gives (as.mapM f) fun bs => bs.flatMap out ⊆ namesAmong (as.flatMap nodes)
  | [] => .pure (List.Subset.refl _)
  | a :: as => by
      rw [List.mapM_cons]
      refine (h a).bind fun b hb => (Gives.mapM h as).map fun bs hbs => ?_
      rw [List.flatMap_cons, List.flatMap_cons]
      exact append_subset_namesAmong hb hbs

end

/-! ## Expressions and calls -/

mutual
theorem expression_names : (e : Expression) →
    Gives (expression e) fun w => w.heads ⊆ namesAmong e.nodes
  | .path p => (Gives.read p).map fun _ _ => List.Subset.refl _
  | .literal l => .pure (by cases l <;> exact List.nil_subset _)
  | .sub c _ => call_names c
theorem call_names : (c : Call) → Gives (call c) fun w => w.heads ⊆ namesAmong c.nodes
  | ⟨.path p, params, hash⟩ => by
      refine (Gives.read p).bind fun _ _ => (parameters_names params).bind fun ws hws =>
        (arguments_names hash).map fun rest hrest => ?_
      have hhead : [p.head] ⊆ namesAmong (Expression.path p).nodes := List.Subset.refl _
      have hhash := List.Subset.trans (wireHashHeads_ofPairs rest) hrest
      rw [Call.nodes, List.append_assoc]
      exact append_subset_namesAmong hhead (append_subset_namesAmong hws hhash)
  | ⟨.literal _, _, _⟩ => .throw .calleeNoPath
  | ⟨.sub _ _, _, _⟩ => .throw .calleeNoPath
theorem parameters_names : (es : List Expression) →
    Gives (parameters es) fun ws => wireParamsHeads ws ⊆ namesAmong (paramsNodes es)
  | [] => .pure (List.Subset.refl _)
  | e :: es => by
      refine (expression_names e).bind fun w hw => (parameters_names es).map fun ws hws => ?_
      rw [paramsNodes]
      exact append_subset_namesAmong hw hws
theorem arguments_names : (hash : List (String × Expression)) →
    Gives (arguments hash) fun ws => wireHashHeads ws ⊆ namesAmong (hashNodes hash)
  | [] => .pure (List.Subset.refl _)
  | (key, e) :: rest => by
      refine (expression_names e).bind fun w hw => (arguments_names rest).map fun ws hws => ?_
      rw [hashNodes]
      exact append_subset_namesAmong hw hws
end

/-! ## Mustaches and attributes -/

theorem mustache_names (m : Mustache) :
    Gives (mustache m) fun w => w.heads ⊆ namesAmong m.nodes := by
  show Gives (mustache m) fun w => w.heads ⊆ namesAmong m.call.nodes
  rw [mustache]
  split
  case isFalse => exact call_names m.call
  case isTrue =>
    obtain ⟨⟨callee, params, hash⟩, trusting, span⟩ := m
    intro symbols w symbols' h
    have hcallee := expression_names callee symbols w symbols' h
    rw [Call.nodes, List.append_assoc, namesAmong_append]
    exact List.subset_append_of_subset_left _ hcallee

theorem part_names (p : AttributePart) :
    Gives (part p) fun w => w.heads ⊆ namesAmong p.nodes := by
  cases p with
  | text t => exact .pure (List.nil_subset _)
  | mustache m => exact mustache_names m

theorem attr_names (a : Attribute) :
    Gives (attr a) fun w => w.value.heads ⊆ namesAmong a.nodes := by
  have hvalue : Gives (value a.value) fun w => w.heads ⊆ namesAmong a.value.nodes := by
    cases a.value with
    | text t => exact .pure (List.nil_subset _)
    | mustache m => exact mustache_names m
    | concat parts =>
        refine (Gives.mapM part_names parts).map fun ws hws => ?_
        rw [WireExpression.heads, wireParamsHeads_eq_flatMap]
        exact hws
  exact hvalue.map fun _ hw => hw

/-! ## Statements -/

mutual
theorem statement_names : (s : Statement) →
    Gives (statement s) fun w => w.names ⊆ namesAmong s.nodes
  | .text _ => .pure (List.nil_subset _)
  | .comment _ => .pure (List.nil_subset _)
  | .mustache m => (mustache_names m).map fun _ hw => hw
  | .element e => element_names e
  | .block b => blockStatement_names b
theorem element_names : (e : Element) →
    Gives (element e) fun w => w.names ⊆ namesAmong e.nodes
  | ⟨tag, attributes, modifiers, children, selfClosing, span⟩ => by
      have hmodifier : ∀ m : Mustache,
          Gives (call m.call) fun w => w.heads ⊆ namesAmong m.nodes := fun m => call_names m.call
      refine (Gives.mapM attr_names attributes).bind fun ws hws =>
        (Gives.mapM hmodifier modifiers).bind fun ws' hws' =>
          (statements_names children).map fun ws'' hws'' => ?_
      exact append_subset_namesAmong (append_subset_namesAmong hws hws') hws''
theorem blockStatement_names : (b : BlockStatement) →
    Gives (blockStatement b) fun w => w.names ⊆ namesAmong b.nodes
  | ⟨c, program, inverse, span⟩ => by
      refine (call_names c).bind fun w hw => (block_names program).bind fun p hp =>
        (inverseBlock_names inverse).map fun i hi => ?_
      exact append_subset_namesAmong (append_subset_namesAmong hw hp) hi
theorem inverseBlock_names : (inverse : Option Block) →
    Gives (inverseBlock inverse) fun w => wireInverseNames w ⊆ namesAmong (inverseNodes inverse)
  | none => .pure (List.Subset.refl _)
  | some b => (block_names b).map fun _ hw => hw
theorem block_names : (b : Block) → Gives (block b) fun w => w.names ⊆ namesAmong b.nodes
  | ⟨body, params⟩ => by
      refine (statements_names body).map fun ws hws => ?_
      have hparams : params ⊆ namesAmong [⟨.block, ⟨body, params⟩⟩] := by
        rw [namesAmong, List.flatMap_singleton]
        exact List.Subset.refl params
      exact append_subset_namesAmong hparams hws
theorem statements_names : (ss : List Statement) →
    Gives (statements ss) fun ws => wireStatementsNames ws ⊆ namesAmong (statementsNodes ss)
  | [] => .pure (List.Subset.refl _)
  | s :: ss => by
      refine (statement_names s).bind fun w hw => (statements_names ss).map fun ws hws => ?_
      rw [statementsNodes]
      exact append_subset_namesAmong hw hws
end

end Lowering

/-- Every symbol in a table was there at first or is one of the heads. -/
theorem Lowering.table_subset (symbols heads : List String) :
    table symbols heads ⊆ symbols ++ heads := by
  intro name h
  rcases List.mem_append.mp h with h | h
  · exact List.mem_append_left _ h
  · have hdups := List.mem_eraseDups.mp (List.mem_filter.mp h).1
    exact List.mem_append_right _ (List.mem_filter.mp hdups).1

/-- Lowering makes up no name. -/
theorem Template.names_of_lower {t : Template} {b : WireBlock} (h : t.lower = .ok b) :
    b.names ⊆ namesAmong t.nodes := by
  obtain ⟨r, hrun, -⟩ := Lowering.statements_reads t.body
  have hgives := Lowering.statements_names t.body t.params
  rw [lower, hrun] at h
  rw [hrun] at hgives
  cases r with
  | error fault => cases h
  | ok statements =>
      cases h
      have hstatements := hgives statements _ rfl
      have hparams : t.params ⊆ namesAmong [⟨.template, t⟩] := by
        rw [namesAmong, List.flatMap_singleton]
        exact List.Subset.refl t.params
      have hsymbols : Lowering.noteAll ((pathsAmong (statementsNodes t.body)).map Path.head)
          t.params ⊆ namesAmong t.nodes := by
        rw [Lowering.noteAll_eq_table]
        exact List.Subset.trans (Lowering.table_subset _ _)
          (append_subset_namesAmong hparams (namesAmong_pathsAmong _))
      have hbelow : namesAmong (statementsNodes t.body) ⊆ namesAmong t.nodes :=
        append_subset_namesAmong (List.nil_subset (namesAmong [⟨.template, t⟩])) (List.Subset.refl _)
      exact List.append_subset.mpr ⟨hsymbols, List.Subset.trans hstatements hbelow⟩

end Bracework
