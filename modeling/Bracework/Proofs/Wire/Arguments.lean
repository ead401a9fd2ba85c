/-
Wire programs — named arguments in the tree and in the program.

The named arguments of a call are read in two ways.  In the tree they are a list
that is searched from the front, so of arguments with one name the first is found;
lowering gives the names their values one after the other, so the last is left.
Both know the same names, and they agree on a name that is given once.  For one
that is repeated the entry is the lowering of the last argument, which is that of
the first only if the two are lowered alike.

What a call is lowered to does not depend on the symbols read before it, so it can
be told for each call by itself.  `CallsMatch` then says that every call of a tree
is lowered to something and that every call of the program, at any depth, is what
a call of the tree is lowered to.
-/
import Bracework.Proofs.Wire.CallSites
import Bracework.Proofs.Wire.Conditionals
import Bracework.Template.Printer
import Mathlib.Data.List.Forall2
import Mathlib.Data.List.Perm.Basic

namespace Bracework

/-! ## Lists of named values -/

section
variable {α β : Type}

/-- The values that are given to a name, in order. -/
def valuesOf (name : String) (pairs : List (String × α)) : List α :=
  pairs.filterMap fun pair => if name == pair.1 then some pair.2 else none

/-- A search from the front finds the first value of a name. -/
theorem lookup_eq_head?_valuesOf (name : String) (pairs : List (String × α)) :
    pairs.lookup name = (valuesOf name pairs).head? := by
  rw [List.lookup_eq_findSome?, valuesOf, List.head?_filterMap]

/-- Giving the names their values one after the other leaves the last value of each. -/
theorem Named.lookup_ofPairs (name : String) (pairs : List (String × α)) :
    (ofPairs pairs).lookup name = (valuesOf name pairs).getLast? := by
  induction pairs using List.reverseRecOn with
  | nil => rfl
  | append_singleton pairs pair ih =>
      obtain ⟨key, value⟩ := pair
      rw [ofPairs, List.foldl_append, valuesOf, List.filterMap_append, List.getLast?_append]
      show (put key value (ofPairs pairs)).lookup name = _
      rw [lookup_put, ih]
      by_cases h : name = key
      · simp [h]
      · simp [h, valuesOf]

/-- Two lists that have the same names and related values at each place have related values under
each name. -/
theorem valuesOf_forall₂ {R : α → β → Prop} {as : List (String × α)} {bs : List (String × β)}
    (h : List.Forall₂ (fun a b => a.1 = b.1 ∧ R a.2 b.2) as bs) (name : String) :
    List.Forall₂ R (valuesOf name as) (valuesOf name bs) := by
  refine List.rel_filterMap ?_ h
  rintro ⟨key, a⟩ ⟨-, b⟩ ⟨rfl, hvalue⟩
  dsimp only
  split
  · exact .some hvalue
  · exact .none

/-- Lists that are related at each place have related ends. -/
theorem getLast?_forall₂ {R : α → β → Prop} {as : List α} {bs : List β}
    (h : List.Forall₂ R as bs) : Option.Rel R as.getLast? bs.getLast? := by
  have hreverse := List.forall₂_reverse_iff.mpr h
  rw [← List.head?_reverse, ← List.head?_reverse]
  generalize as.reverse = as, bs.reverse = bs at hreverse
  cases hreverse with
  | nil => exact .none
  | cons hlast _ => exact .some hlast

end

/-! ## What expressions and calls are lowered to -/

namespace Lowering

section
variable {α : Type} {x : Lowering α} {a b : α}

/-- A part of the lowering gives a value back, whatever the symbols. -/
def Yields (x : Lowering α) (a : α) : Prop :=
  ∀ symbols, ∃ symbols', x.run symbols = .ok (a, symbols')

theorem Yields.unique (h : Yields x a) (h' : Yields x b) : a = b := by
  obtain ⟨_, hrun⟩ := h []
  obtain ⟨_, hrun'⟩ := h' []
  cases hrun.symm.trans hrun'
  rfl

/-- What is given back once is given back whatever the symbols. -/
theorem Reads.gives {ps : List Path} {P : α → Prop} (h : Reads x ps P) : Gives x (Yields x) := by
  obtain ⟨r, hrun, -⟩ := h
  intro symbols a symbols' ha
  rw [hrun symbols] at ha
  cases r with
  | error fault => cases ha
  | ok b =>
      cases ha
      exact fun symbols => ⟨_, hrun symbols⟩

end

end Lowering

/-- What an expression is lowered to. -/
def Expression.LoweredTo (e : Expression) (w : WireExpression) : Prop :=
  Lowering.Yields (Lowering.expression e) w

/-- What a call is lowered to. -/
def Call.LoweredTo (c : Call) (w : WireExpression) : Prop := Lowering.Yields (Lowering.call c) w

/-- The entry of each name is the lowering of the last argument with that name, and there is none if
there is no such argument. -/
def Call.HandsOn (c : Call) (hash : Named WireExpression) : Prop :=
  ∀ name, Option.Rel Expression.LoweredTo (valuesOf name c.hash).getLast? (hash.lookup name)

namespace Lowering

theorem arguments_lowered (hash : List (String × Expression)) :
    Gives (arguments hash)
      (List.Forall₂ (fun pair entry => pair.1 = entry.1 ∧ pair.2.LoweredTo entry.2) hash) := by
  induction hash with
  | nil => exact .pure .nil
  | cons pair rest ih =>
      obtain ⟨name, e⟩ := pair
      exact (expression_reads e).gives.bind fun _ he => ih.map fun _ hrest => .cons ⟨rfl, he⟩ hrest

theorem call_handsOn (c : Call) :
    Gives (call c) fun w => ∃ path params hash, w = .call path params hash ∧ c.HandsOn hash := by
  obtain ⟨callee, params, hash⟩ := c
  cases callee with
  | path p =>
      refine (Gives.read p).bind fun _ _ => (parameters_reads params).gives.bind fun ws _ =>
        (arguments_lowered hash).map fun entries hentries => ⟨_, _, _, rfl, fun name => ?_⟩
      rw [Named.lookup_ofPairs]
      exact getLast?_forall₂ (valuesOf_forall₂ hentries name)
  | literal l => exact .throw .calleeNoPath
  | sub inner span => exact .throw .calleeNoPath

end Lowering

/-! ## The two readings -/

namespace Call

variable {c : Call} {w : WireExpression} {path : String} {params : List WireExpression}
  {hash : Named WireExpression}

theorem LoweredTo.handsOn (h : c.LoweredTo (.call path params hash)) : c.HandsOn hash := by
  obtain ⟨symbols', hrun⟩ := h []
  obtain ⟨_, _, _, heq, hhands⟩ := Lowering.call_handsOn c _ _ _ hrun
  cases heq
  exact hhands

theorem LoweredTo.isCall (h : c.LoweredTo w) : ∃ path params hash, w = .call path params hash := by
  obtain ⟨symbols', hrun⟩ := h []
  obtain ⟨path, params, hash, heq, -⟩ := Lowering.call_handsOn c _ _ _ hrun
  exact ⟨path, params, hash, heq⟩

theorem named?_eq_head? (c : Call) (name : String) :
    c.named? name = (valuesOf name c.hash).head? := lookup_eq_head?_valuesOf name c.hash

/-- The program has an entry for a name exactly if the lookup in the tree finds an argument. -/
theorem HandsOn.isSome_lookup (h : c.HandsOn hash) (name : String) :
    (hash.lookup name).isSome = (c.named? name).isSome := by
  have hentry := h name
  rw [named?_eq_head?]
  generalize hash.lookup name = entry at hentry ⊢
  cases hvalues : valuesOf name c.hash with
  | nil =>
      rw [hvalues] at hentry
      cases hentry
      rfl
  | cons e es =>
      rw [hvalues, List.getLast?_cons] at hentry
      cases hentry
      rfl

/-- The entry of a name is the lowering of the argument that the lookup finds exactly if the first
and the last argument with that name are lowered alike. -/
theorem HandsOn.named?_iff (h : c.HandsOn hash) (name : String) :
    Option.Rel Expression.LoweredTo (c.named? name) (hash.lookup name) ↔
      ∀ first ∈ c.named? name, ∀ last ∈ (valuesOf name c.hash).getLast?,
        ∃ w, first.LoweredTo w ∧ last.LoweredTo w := by
  have hentry := h name
  rw [named?_eq_head?]
  generalize hash.lookup name = entry at hentry ⊢
  cases hvalues : valuesOf name c.hash with
  | nil =>
      rw [hvalues] at hentry
      exact ⟨fun _ first hfirst => (nomatch hfirst), fun _ => hentry⟩
  | cons e es =>
      rw [hvalues, List.getLast?_cons] at hentry
      rw [List.getLast?_cons, List.head?_cons]
      obtain @⟨_, w, hlast⟩ := hentry
      constructor
      · rintro ⟨hfirst⟩ first ⟨⟩ last ⟨⟩
        exact ⟨w, hfirst, hlast⟩
      · intro halike
        obtain ⟨w', hfirst, hlast'⟩ := halike _ rfl _ rfl
        rw [hlast.unique hlast']
        exact .some hfirst

/-- The two readings agree on a name that is given once. -/
theorem HandsOn.named?_of_once (h : c.HandsOn hash) {name : String}
    (honce : (valuesOf name c.hash).length ≤ 1) :
    Option.Rel Expression.LoweredTo (c.named? name) (hash.lookup name) := by
  have hentry := h name
  rw [named?_eq_head?]
  match hvalues : valuesOf name c.hash, honce with
  | [], _ => rwa [hvalues] at hentry
  | [e], _ => rwa [hvalues] at hentry

end Call

/-! ## Calls that match -/

/-- The expressions in the entries are expressions in the arguments. -/
theorem wireHashPlaced_ofPairs (pairs : List (String × WireExpression)) :
    wireHashPlaced (Named.ofPairs pairs) ⊆ wireHashPlaced pairs := by
  intro x h
  rw [wireHashPlaced_eq_flatMap] at h ⊢
  obtain ⟨argument, hargument, hx⟩ := List.mem_flatMap.mp h
  exact List.mem_flatMap.mpr ⟨argument, Named.mem_of_mem_ofPairs hargument, hx⟩

/-- Whether an expression is a call. -/
def WireExpression.isCall : WireExpression → Bool
  | .call _ _ _ => true
  | _ => false

/-- Some calls of a tree against the expressions that the parts with these calls are lowered to:
every call is lowered to something, and every call among the expressions comes from one of them. -/
structure CallsMatch (calls : List Call) (placed : List (WirePlace × WireExpression)) : Prop where
  lowered : ∀ c ∈ calls, ∃ w, c.LoweredTo w
  made : ∀ place path params hash, (place, .call path params hash) ∈ placed →
    ∃ c ∈ calls, c.LoweredTo (.call path params hash)

namespace CallsMatch

variable {cs cs' : List Call} {ps ps' : List (WirePlace × WireExpression)}

theorem nil : CallsMatch [] [] where
  lowered := List.forall_mem_nil _
  made := fun _ _ _ _ h => absurd h List.not_mem_nil

theorem append (h : CallsMatch cs ps) (h' : CallsMatch cs' ps') :
    CallsMatch (cs ++ cs') (ps ++ ps') where
  lowered := List.forall_mem_append.mpr ⟨h.lowered, h'.lowered⟩
  made := by
    intro place path params hash hmem
    rcases List.mem_append.mp hmem with hmem | hmem
    · obtain ⟨c, hc, hlowered⟩ := h.made _ _ _ _ hmem
      exact ⟨c, List.mem_append_left _ hc, hlowered⟩
    · obtain ⟨c, hc, hlowered⟩ := h'.made _ _ _ _ hmem
      exact ⟨c, List.mem_append_right _ hc, hlowered⟩

/-- Fewer expressions match as well, as do the same calls in another order. -/
theorem of_subset (h : CallsMatch cs ps) (hcalls : ∀ c, c ∈ cs' ↔ c ∈ cs) (hplaced : ps' ⊆ ps) :
    CallsMatch cs' ps' where
  lowered := fun c hc => h.lowered c ((hcalls c).mp hc)
  made := by
    intro place path params hash hmem
    obtain ⟨c, hc, hlowered⟩ := h.made _ _ _ _ (hplaced hmem)
    exact ⟨c, (hcalls c).mpr hc, hlowered⟩

/-- An expression that is no call needs no call. -/
theorem cons_value {place : WirePlace} {w : WireExpression} (h : CallsMatch cs ps)
    (hvalue : w.isCall = false) : CallsMatch cs ((place, w) :: ps) where
  lowered := h.lowered
  made := by
    intro place path params hash hmem
    rcases List.mem_cons.mp hmem with heq | hmem
    · obtain ⟨-, rfl⟩ := Prod.mk.inj heq
      cases hvalue
    · exact h.made _ _ _ _ hmem

/-- A call and what it is lowered to, before others. -/
theorem cons_call {c : Call} {place : WirePlace} {w : WireExpression} (hc : c.LoweredTo w)
    (h : CallsMatch cs ps) : CallsMatch (c :: cs) ((place, w) :: ps) where
  lowered := List.forall_mem_cons.mpr ⟨⟨w, hc⟩, h.lowered⟩
  made := by
    intro place path params hash hmem
    rcases List.mem_cons.mp hmem with heq | hmem
    · obtain ⟨-, rfl⟩ := Prod.mk.inj heq
      exact ⟨c, List.mem_cons_self, hc⟩
    · obtain ⟨c', hc', hlowered⟩ := h.made _ _ _ _ hmem
      exact ⟨c', List.mem_cons_of_mem _ hc', hlowered⟩

theorem literal (place : WirePlace) (l : Literal) :
    CallsMatch [] ((Lowering.literal l).placed place) := by
  cases l with
  | string | number | boolean | null | undefined => exact nil.cons_value rfl

end CallsMatch

theorem callsAmong_cons (n : Node) (ns : List Node) :
    callsAmong (n :: ns) = n.calls ++ callsAmong ns := List.flatMap_cons

theorem callsAmong_append (as bs : List Node) :
    callsAmong (as ++ bs) = callsAmong as ++ callsAmong bs := List.flatMap_append

theorem callsAmong_flatMap {α : Type} (nodes : α → List Node) (as : List α) :
    callsAmong (as.flatMap nodes) = as.flatMap fun a => callsAmong (nodes a) := List.flatMap_assoc

namespace Lowering

/-- What an element of a sequence matches, its place in the sequence matches. -/
theorem Gives.flatMap_match {α β : Type} {f : α → Lowering β} {calls : α → List Call}
    {placed : β → List (WirePlace × WireExpression)}
    (h : ∀ a, Gives (f a) fun b => CallsMatch (calls a) (placed b)) :
    (as : List α) →
      Gives (as.mapM f) fun bs => CallsMatch (as.flatMap calls) (bs.flatMap placed)
  | [] => .pure .nil
  | a :: as => by
      rw [List.mapM_cons]
      refine (h a).bind fun b hb => (Gives.flatMap_match h as).map fun bs hbs => ?_
      rw [List.flatMap_cons, List.flatMap_cons]
      exact hb.append hbs

/-! ### Expressions and calls -/

mutual
theorem expression_match : (e : Expression) → (place : WirePlace) →
    Gives (expression e) fun w => CallsMatch (callsAmong e.nodes) (w.placed place)
  | .path p, _ => (Gives.read p).map fun _ _ => .cons_value .nil rfl
  | .literal l, place => .pure (.literal place l)
  | .sub c _, place => call_match c place
theorem call_match : (c : Call) → (place : WirePlace) →
    Gives (call c) fun w => CallsMatch (c :: callsAmong c.nodes) (w.placed place)
  | ⟨.path p, params, hash⟩, place => by
      -- the arguments match by themselves, and the call is what it was just lowered to
      have hparts : Gives (call ⟨.path p, params, hash⟩) fun w =>
          (Call.mk (.path p) params hash).LoweredTo w →
            CallsMatch (⟨.path p, params, hash⟩ :: callsAmong (Call.nodes ⟨.path p, params, hash⟩))
              (w.placed place) := by
        refine (Gives.read p).bind fun _ _ => (parameters_match params).bind fun ws hws =>
          (arguments_match hash).map fun entries hentries hself => ?_
        refine .cons_call hself ?_
        rw [Call.nodes, callsAmong_append, callsAmong_append]
        refine .append hws (hentries.of_subset (fun _ => Iff.rfl) ?_)
        exact wireHashPlaced_ofPairs entries
      intro symbols w symbols' hrun
      exact hparts symbols w symbols' hrun ((call_reads _).gives symbols w symbols' hrun)
  | ⟨.literal _, _, _⟩, _ => .throw .calleeNoPath
  | ⟨.sub _ _, _, _⟩, _ => .throw .calleeNoPath
theorem parameters_match : (es : List Expression) →
    Gives (parameters es) fun ws =>
      CallsMatch (callsAmong (paramsNodes es)) (wirePlaced .argument ws)
  | [] => .pure .nil
  | e :: es => by
      refine (expression_match e .argument).bind fun w hw => (parameters_match es).map
        fun ws hws => ?_
      rw [paramsNodes, callsAmong_append]
      exact hw.append hws
theorem arguments_match : (hash : List (String × Expression)) →
    Gives (arguments hash) fun ws =>
      CallsMatch (callsAmong (hashNodes hash)) (wireHashPlaced ws)
  | [] => .pure .nil
  | (_, e) :: rest => by
      refine (expression_match e .argument).bind fun w hw => (arguments_match rest).map
        fun ws hws => ?_
      rw [hashNodes, callsAmong_append]
      exact hw.append hws
end

/-! ### Mustaches and attributes -/

theorem mustache_match (m : Mustache) (place : WirePlace) :
    Gives (mustache m) fun w => CallsMatch (callsAmong m.nodes) (w.placed place) := by
  obtain ⟨⟨callee, params, hash⟩, trusting, span⟩ := m
  rw [mustache, Mustache.nodes, callsAmong_cons, Node.calls, Kind.calls]
  split
  case isFalse h => exact call_match _ place
  case isTrue h =>
    simp only [Call.isBare, Bool.and_eq_true, List.isEmpty_iff] at h
    obtain ⟨rfl, rfl⟩ := h
    rw [Call.nodes, paramsNodes, hashNodes, List.append_nil, List.append_nil]
    exact expression_match callee place

theorem part_match (p : AttributePart) :
    Gives (part p) fun w => CallsMatch (callsAmong p.nodes) (w.placed .part) := by
  cases p with
  | text t => exact .pure (.cons_value .nil rfl)
  | mustache m => exact mustache_match m .part

theorem attr_match (a : Attribute) :
    Gives (attr a) fun w => CallsMatch (callsAmong a.nodes) (w.value.placed .attribute) := by
  obtain ⟨name, v, span⟩ := a
  have hvalue : Gives (value v) fun w =>
      CallsMatch (callsAmong v.nodes) (w.placed .attribute) := by
    cases v with
    | text t => exact .pure (.cons_value .nil rfl)
    | mustache m => exact mustache_match m .attribute
    | concat parts =>
        refine (Gives.flatMap_match part_match parts).map fun ws hws => ?_
        rw [AttributeValue.nodes, callsAmong_flatMap, WireExpression.placed,
          wirePlaced_eq_flatMap]
        exact hws.cons_value rfl
  exact hvalue.map fun _ hw => hw

/-- A modifier is called also where a mustache would be shown. -/
theorem modifier_match (m : Mustache) :
    Gives (call m.call) fun w =>
      CallsMatch (m.call :: callsAmong m.nodes) (w.placed .modifier) := by
  intro symbols w symbols' hrun
  refine (call_match m.call .modifier symbols w symbols' hrun).of_subset (fun c => ?_)
    (List.Subset.refl _)
  rw [Mustache.nodes, callsAmong_cons, Node.calls, Kind.calls]
  split
  case isTrue => exact Iff.rfl
  case isFalse => simp

/-! ### Statements -/

mutual
theorem statement_match : (s : Statement) →
    Gives (statement s) fun w => CallsMatch (callsAmong s.nodes) w.placed
  | .text _ => .pure .nil
  | .comment _ => .pure .nil
  | .mustache m => (mustache_match m .appended).map fun _ hw => hw
  | .element e => element_match e
  | .block b => blockStatement_match b
theorem element_match : (e : Element) →
    Gives (element e) fun w => CallsMatch (callsAmong e.nodes) w.placed
  | ⟨tag, attributes, modifiers, children, selfClosing, span⟩ => by
      refine (Gives.flatMap_match attr_match attributes).bind fun ws hws =>
        (Gives.flatMap_match modifier_match modifiers).bind fun ws' hws' =>
          (statements_match children).map fun ws'' hws'' => ?_
      refine ((hws.append hws').append hws'').of_subset (fun c => ?_) ?_
      · rw [Element.nodes, callsAmong_cons, callsAmong_append, callsAmong_append,
          callsAmong_flatMap, callsAmong_flatMap, Node.calls, Kind.calls]
        have hmodifiers := (List.map_append_flatMap_perm modifiers (·.call)
          fun m => callsAmong m.nodes).mem_iff (a := c)
        simp only [List.mem_append] at hmodifiers ⊢
        rw [← hmodifiers]
        tauto
      · rw [WireStatement.placed, wirePlaced_eq_flatMap]
        exact List.Subset.refl _
theorem blockStatement_match : (b : BlockStatement) →
    Gives (blockStatement b) fun w => CallsMatch (callsAmong b.nodes) w.placed
  | ⟨c, program, inverse, span⟩ => by
      refine (call_match c .block).bind fun w hw => (block_match program).bind fun p hp =>
        (inverseBlock_match inverse).map fun i hi => ?_
      rw [BlockStatement.nodes, callsAmong_cons, callsAmong_append, callsAmong_append]
      exact (hw.append hp).append hi
theorem inverseBlock_match : (inverse : Option Block) →
    Gives (inverseBlock inverse) fun w =>
      CallsMatch (callsAmong (inverseNodes inverse)) (wireInversePlaced w)
  | none => .pure .nil
  | some b => (block_match b).map fun _ hw => hw
theorem block_match : (b : Block) →
    Gives (block b) fun w => CallsMatch (callsAmong b.nodes) w.placed
  | ⟨body, _⟩ => (statements_match body).map fun _ hws => hws
theorem statements_match : (ss : List Statement) →
    Gives (statements ss) fun ws =>
      CallsMatch (callsAmong (statementsNodes ss)) (wireStatementsPlaced ws)
  | [] => .pure .nil
  | s :: ss => by
      refine (statement_match s).bind fun w hw => (statements_match ss).map fun ws hws => ?_
      rw [statementsNodes, callsAmong_append]
      exact hw.append hws
end

end Lowering

/-! ## Templates -/

theorem Template.callsMatch_of_lower {t : Template} {b : WireBlock} (h : t.lower = .ok b) :
    CallsMatch t.callSites b.placed := by
  have hgives := Lowering.statements_match t.body t.params
  rw [lower] at h
  cases hrun : (Lowering.statements t.body).run t.params with
  | error fault =>
      rw [hrun] at h
      cases h
  | ok r =>
      rw [hrun] at h
      cases h
      exact hgives r.1 r.2 hrun

/-- Lowering makes a call of every call of the tree, and every call of the program comes from one.
The call has an entry for a name exactly if the lookup in the tree finds an argument; the entry is
the lowering of the last argument with that name, so it is the lowering of the one that the lookup
finds exactly if the first and the last are lowered alike, as they are for a name that is given
once. -/
theorem Template.namedArguments_of_compiled {m : Type → Type} {t : Template} {o : ResolvedOptions m}
    {program : CompiledTemplate} (h : t.compiled o = .ok program) :
    (∀ c ∈ t.callSites, ∃ path params hash, c.LoweredTo (.call path params hash)) ∧
    (∀ place path params hash, (place, .call path params hash) ∈ program.block.placed →
      ∃ c ∈ t.callSites, c.LoweredTo (.call path params hash)) ∧
    ∀ c ∈ t.callSites, ∀ path params hash, c.LoweredTo (.call path params hash) → ∀ name,
      (hash.lookup name).isSome = (c.named? name).isSome ∧
      Option.Rel Expression.LoweredTo (valuesOf name c.hash).getLast? (hash.lookup name) ∧
      (Option.Rel Expression.LoweredTo (c.named? name) (hash.lookup name) ↔
        ∀ first ∈ c.named? name, ∀ last ∈ (valuesOf name c.hash).getLast?,
          ∃ w, first.LoweredTo w ∧ last.LoweredTo w) ∧
      ((valuesOf name c.hash).length ≤ 1 →
        Option.Rel Expression.LoweredTo (c.named? name) (hash.lookup name)) := by
  have hmatch : CallsMatch t.callSites program.block.placed := by
    rw [compiled] at h
    cases hlower : t.lower with
    | error fault =>
        rw [hlower] at h
        cases h
    | ok b =>
        rw [hlower] at h
        cases h
        exact callsMatch_of_lower hlower
  refine ⟨fun c hc => ?_, hmatch.made, fun c _ path params hash hc name => ?_⟩
  · obtain ⟨w, hw⟩ := hmatch.lowered c hc
    obtain ⟨path, params, hash, rfl⟩ := hw.isCall
    exact ⟨path, params, hash, hw⟩
  · have hhands := hc.handsOn
    exact ⟨hhands.isSome_lookup name, hhands name, hhands.named?_iff name, hhands.named?_of_once⟩

/-- A template with named arguments in a modifier, a block, a mustache and a call in parentheses. -/
def namedTemplate : Template where
  params := []
  body := [
    .element ⟨"p", [],
      [⟨⟨.path ⟨"on", .none⟩, [], [("once", .literal (.boolean true))]⟩, false, .none⟩],
      [.mustache ⟨⟨.path ⟨"f", .none⟩,
        [.sub ⟨.path ⟨"g", .none⟩, [], [("k", .path ⟨"x", .none⟩), ("k", .path ⟨"y", .none⟩)]⟩
          .none], []⟩, true, .none⟩], false, .none⟩,
    .block ⟨⟨.path ⟨"each", .none⟩, [.path ⟨"@rows", .none⟩], [("key", .literal (.string "id"))]⟩,
      ⟨[.mustache ⟨⟨.path ⟨"row", .none⟩, [], []⟩, false, .none⟩], ["row"]⟩, none, .none⟩]

theorem Template.namedArguments_of_compiled_places :
    ∃ program, namedTemplate.compiled ({} : ResolvedOptions Id) = .ok program ∧
      (∀ c ∈ namedTemplate.callSites, ∃ path params hash,
        c.LoweredTo (.call path params hash)) ∧
      ∀ c ∈ namedTemplate.callSites, ∀ path params hash, c.LoweredTo (.call path params hash) →
        ∀ name, (hash.lookup name).isSome = (c.named? name).isSome := by
  refine ⟨_, rfl, ?_, ?_⟩
  · exact (namedArguments_of_compiled (o := ({} : ResolvedOptions Id)) rfl).1
  · intro c hc path params hash hlowered name
    exact ((namedArguments_of_compiled (o := ({} : ResolvedOptions Id)) rfl).2.2
      c hc path params hash hlowered name).1

/-- A call with a name that is given twice. -/
def repeatedCall : Call where
  callee := .path ⟨"f", .none⟩
  params := []
  hash := [("a", .literal (.string "x")), ("a", .literal (.string "y"))]

/-- A name can be given twice, and then the two readings do not agree. -/
theorem Template.namedArguments_repeated :
    ((Template.parse "\x7b\x7bf a=\"x\" a=\"y\"\x7d\x7d" "repeated.hbs").toOption.map
        Template.print = some (Template.print ⟨[.mustache ⟨repeatedCall, false, .none⟩], []⟩)) ∧
    repeatedCall ∈ Template.callSites ⟨[.mustache ⟨repeatedCall, false, .none⟩], []⟩ ∧
    ∃ hash, repeatedCall.LoweredTo (.call "f" [] hash) ∧
      ¬ Option.Rel Expression.LoweredTo (repeatedCall.named? "a") (hash.lookup "a") := by
  refine ⟨by decide +kernel, List.mem_singleton.mpr rfl, [("a", .literal (.string "y"))],
    fun symbols => ⟨_, rfl⟩, ?_⟩
  rintro ⟨hfirst⟩
  have hyields : (Expression.literal (.string "x")).LoweredTo (.literal (.string "x")) :=
    fun symbols => ⟨symbols, rfl⟩
  simpa using hyields.unique hfirst

end Bracework
