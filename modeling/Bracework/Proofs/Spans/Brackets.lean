/-
Spans — the marks around elements and blocks match.

An element ends with the end of its own tag or with a closing tag of its name, and a
block with the closing mark of the first block of its else chain.  What ends an element
or a chain ends nothing else: the offset behind a closing mark is larger than all offsets
that were reached before it, and the marks of the nodes inside come before it.

A tree does not say which blocks were written with an else mark.  It need not: a block
that is all of the inverse of another was written so if and only if both end at the same
offset, because otherwise the outer one has a closing mark of its own.
-/
import Bracework.Proofs.Spans.Delimiters
import Bracework.Proofs.Traversal.Rules

namespace Bracework

open Reading Cursor Relation

/-! ## What it means that marks match -/

/-- A text is what an element must end with. -/
def Element.ClosedBy (e : Element) (text : List Char) : Prop :=
  if e.selfClosing then text = Token.selfClose
  else if e.isVoid then text = Token.tagClose
  else ClosesTag e.tag text

/-- A block is chained to another: it is all of its inverse, and they end together.  Such a block
was written with an else mark in place of an opening mark. -/
def BlockStatement.Chains (b inner : BlockStatement) : Prop :=
  b.inverse = some ⟨[.block inner], []⟩ ∧ inner.span.stop = b.span.stop

/-- A block is chained to one of a list of nodes. -/
def IsChained (nodes : List Node) (b : BlockStatement) : Prop :=
  ∃ outer, ⟨.blockStatement, outer⟩ ∈ nodes ∧ outer.Chains b

/-- A block of a list of nodes begins the else chain of another. -/
structure BeginsChain (nodes : List Node) (first b : BlockStatement) : Prop where
  mem : ⟨.blockStatement, first⟩ ∈ nodes
  outermost : ¬ IsChained nodes first
  chain : ReflTransGen BlockStatement.Chains first b

/-- The offset behind what closes a node, if it is of a kind that has to be closed. -/
def Node.closesAt? : Node → Option Nat
  | ⟨.element, e⟩ => some e.span.stop
  | ⟨.blockStatement, b⟩ => some b.span.stop
  | _ => none

/-- Two nodes are blocks of one else chain, the second behind the first. -/
def Node.SameChain (n n' : Node) : Prop :=
  ∃ b b', n = ⟨.blockStatement, b⟩ ∧ n' = ⟨.blockStatement, b'⟩ ∧
    TransGen BlockStatement.Chains b b'

/-- What closes the one node closes the other only if they are blocks of one else chain. -/
def Node.ClosesApart (n n' : Node) : Prop :=
  ∀ stop ∈ n.closesAt?, stop ∈ n'.closesAt? → n.SameChain n'

/-- The marks of a tree match in a source. -/
structure Template.Bracketed (source : List Char) (t : Template) : Prop where
  /-- an element stands between the angle with its tag and what must end it -/
  elements : ∀ e : Element, ⟨.element, e⟩ ∈ t.nodes → ∃ content closing,
    e.span.slice? source = some (Token.tagOpen ++ e.tag.toList ++ content ++ closing) ∧
      e.ClosedBy closing
  /-- every block belongs to an else chain -/
  chains : ∀ b : BlockStatement, ⟨.blockStatement, b⟩ ∈ t.nodes →
    ∃ first, BeginsChain t.nodes first b
  /-- a block stands between its opening or else mark and the closing mark of its chain -/
  blocks : ∀ first b : BlockStatement, BeginsChain t.nodes first b →
    ∃ opening content closing, b.span.slice? source = some (opening ++ content ++ closing) ∧
      (IsChained t.nodes b → opening = Token.elseOpen) ∧
      (¬ IsChained t.nodes b → opening = Token.blockOpen) ∧
      ClosesBlock (first.call.calleeText?.getD "") closing
  /-- what closes an element or an else chain closes nothing else -/
  apart : t.nodes.Pairwise Node.ClosesApart

/-! ## Else chains -/

/-- A block that is chained to another was read behind an else mark, in the same chain. -/
theorem ReadsBlock.of_chains {name : String} {head : BlockHead} {c d : Cursor}
    {b inner : BlockStatement} (h : ReadsBlock name head c b d) (hc : b.Chains inner) :
    ∃ head' mark c₁ c₂, c.Reaches c₁ ∧ ReadsItem c₁ (.elseMark (some head') mark) c₂ ∧
      ReadsBlock name head' c₂ inner d := by
  obtain ⟨hinverse, hstop⟩ := hc
  cases h with
  | close hp hcl => cases hinverse
  | inverse hp he hv hcl =>
      -- the closing mark stands behind the inverse, so no block of the inverse ends with it
      cases hinverse
      cases hv with
      | leaf hi hs => cases hi
      | block hi hb hs =>
          cases hs
          rw [hb.span_eq, BlockHead.close, hcl.closeBlock_span] at hstop
          exact absurd hstop (Nat.ne_of_lt hcl.precedes.offset_lt)
  | chain hp he hb =>
      cases hinverse
      exact ⟨_, _, _, _, hp.reaches, he, hb⟩

/-- So was every block further on in its chain, and what closes the one closes the other. -/
theorem ReadsBlock.of_chain {name : String} {head : BlockHead} {c d : Cursor}
    {b inner : BlockStatement} (h : ReadsBlock name head c b d)
    (hc : ReflTransGen BlockStatement.Chains b inner) :
    ∃ head' c', c.Reaches c' ∧ ReadsBlock name head' c' inner d := by
  induction hc with
  | refl => exact ⟨head, c, .refl c, h⟩
  | tail _ hlink ih =>
      obtain ⟨head', c', hreach, hread⟩ := ih
      obtain ⟨head'', _, c₁, c₂, hreach', he, hread'⟩ := hread.of_chains hlink
      exact ⟨head'', c₂, hreach.trans (hreach'.trans he.reaches), hread'⟩

theorem BlockHead.chains_close (head : BlockHead) (program : List Statement)
    (inner : BlockStatement) :
    (head.close program (some ⟨[.block inner], []⟩) inner.span.stop).Chains inner :=
  ⟨rfl, rfl⟩

theorem closeChain_chain (b : BlockStatement) (outer : List ChainLink) :
    ReflTransGen BlockStatement.Chains (closeChain b outer b.span.stop) b := by
  induction outer generalizing b with
  | nil => exact .refl
  | cons link outer ih =>
      exact (ih (link.head.close link.program _ b.span.stop)).tail (link.head.chains_close ..)

/-! ## Nodes of elements and blocks -/

theorem OpeningTag.nodes_close (tag : OpeningTag) (children : List Statement) (stop : Nat) :
    (tag.close children stop).nodes = ⟨.element, tag.close children stop⟩ ::
      (tag.attributes.flatMap Attribute.nodes ++ tag.modifiers.flatMap Mustache.nodes ++
        statementsNodes children) := rfl

theorem BlockHead.nodes_close (head : BlockHead) (program : List Statement)
    (inverse : Option Block) (stop : Nat) :
    (head.close program inverse stop).nodes =
      ⟨.blockStatement, head.close program inverse stop⟩ ::
        (head.call.nodes ++ (⟨.block, ⟨program, head.params⟩⟩ :: statementsNodes program) ++
          inverseNodes inverse) := rfl

theorem inverseNodes_chained (inner : BlockStatement) :
    inverseNodes (some ⟨[.block inner], []⟩) = ⟨.block, ⟨[.block inner], []⟩⟩ :: inner.nodes :=
  congrArg (_ :: ·) (List.append_nil inner.nodes)

theorem Node.SameChain.of_chains {b inner : BlockStatement} {n : Node} (hlink : b.Chains inner)
    (h : n = ⟨.blockStatement, inner⟩ ∨ Node.SameChain ⟨.blockStatement, inner⟩ n) :
    Node.SameChain ⟨.blockStatement, b⟩ n := by
  rcases h with rfl | ⟨b', last, heq, rfl, hchain⟩
  · exact ⟨b, inner, rfl, rfl, .single hlink⟩
  · cases heq
    exact ⟨b, last, rfl, rfl, .head hlink hchain⟩

theorem BlockStatement.mem_nodes (b : BlockStatement) : ⟨.blockStatement, b⟩ ∈ b.nodes := by
  cases b
  exact List.mem_cons_self

theorem BlockStatement.Chains.nodes_subset {b inner : BlockStatement} (h : b.Chains inner) :
    inner.nodes ⊆ b.nodes := by
  obtain ⟨call, program, inverse, span⟩ := b
  obtain ⟨rfl, -⟩ := h
  intro n hn
  exact List.mem_cons_of_mem _ (List.mem_append_right _
    (List.mem_cons_of_mem _ (List.mem_append_left _ hn)))

theorem nodes_subset_of_chain {b inner : BlockStatement}
    (h : ReflTransGen BlockStatement.Chains b inner) : inner.nodes ⊆ b.nodes := by
  induction h with
  | refl => exact List.Subset.refl _
  | tail _ hlink ih => exact List.Subset.trans hlink.nodes_subset ih

/-! ## Nodes that nothing closes -/

theorem Node.closesAt?_of_inline {n : Node} (h : n.isInline = true) : n.closesAt? = none := by
  obtain ⟨kind, value⟩ := n
  cases kind with
  | element => cases h
  | blockStatement => cases h
  | _ => rfl

/-- Nothing closes the nodes of a leaf. -/
theorem Reading.ReadsItem.leaf_closesAt? {c d : Cursor} {s : Statement} (h : ReadsItem c (.leaf s) d) :
    ∀ n ∈ s.nodes, n.closesAt? = none := by
  cases h with
  | mustache _ _ => exact fun n hn => n.closesAt?_of_inline (Mustache.nodes_inline _ n hn)
  | longRemark | remark | comment | text => exact List.forall_mem_singleton.mpr rfl

theorem OpeningTag.closesAt? (tag : OpeningTag) :
    ∀ n ∈ tag.attributes.flatMap Attribute.nodes ++ tag.modifiers.flatMap Mustache.nodes,
      n.closesAt? = none := by
  have hinline : Everywhere Node.isInline
      (tag.attributes.flatMap Attribute.nodes ++ tag.modifiers.flatMap Mustache.nodes) :=
    Everywhere.append_iff.mpr
      ⟨Everywhere.flatMap_iff.mpr fun a _ => a.nodes_inline,
        Everywhere.flatMap_iff.mpr fun m _ => m.nodes_inline⟩
  exact fun n hn => n.closesAt?_of_inline (hinline n hn)

theorem Call.closesAt? (call : Call) : ∀ n ∈ call.nodes, n.closesAt? = none :=
  fun n hn => n.closesAt?_of_inline (call.nodes_inline n hn)

/-! ## Where elements and blocks were read -/

/-- An element or a block was read at a place of a source, a block in an else chain whose nodes are
among those of a tree. -/
def Node.ReadFrom (root : Cursor) (nodes : List Node) : Node → Prop
  | ⟨.element, e⟩ => ∃ c d, root.Reaches c ∧ ReadsStatements c [.element e] d
  | ⟨.blockStatement, b⟩ => ∃ name outer head a c d, root.Reaches a ∧
      OpenChain name a outer head c ∧ ReadsBlock name head c b d ∧
        (closeChain b outer b.span.stop).nodes ⊆ nodes
  | _ => True

theorem Node.ReadFrom.of_closesAt? {root : Cursor} {nodes : List Node} {n : Node}
    (h : n.closesAt? = none) : n.ReadFrom root nodes := by
  obtain ⟨kind, value⟩ := n
  cases kind with
  | element => cases h
  | blockStatement => cases h
  | _ => exact trivial

section
variable {root : Cursor} {nodes : List Node}

theorem element_readFrom {e : Element} {c d : Cursor} {tag : OpeningTag}
    {children : List Statement} {stop : Nat} (he : e = tag.close children stop)
    (hr : root.Reaches c) (h : ReadsStatements c [.element e] d)
    (hchildren : ∀ n ∈ statementsNodes children, n.ReadFrom root nodes) :
    ∀ n ∈ e.nodes, n.ReadFrom root nodes := by
  subst he
  rw [tag.nodes_close]
  exact List.forall_mem_cons.mpr ⟨⟨c, d, hr, h⟩, List.forall_mem_append.mpr
    ⟨fun n hn => .of_closesAt? (tag.closesAt? n hn), hchildren⟩⟩

theorem block_readFrom {b : BlockStatement} {head : BlockHead} {program : List Statement}
    {inverse : Option Block} {stop : Nat} (hb : b = head.close program inverse stop)
    (hown : Node.ReadFrom root nodes ⟨.blockStatement, b⟩)
    (hprogram : ∀ n ∈ statementsNodes program, n.ReadFrom root nodes)
    (hinverse : ∀ n ∈ inverseNodes inverse, n.ReadFrom root nodes) :
    ∀ n ∈ b.nodes, n.ReadFrom root nodes := by
  subst hb
  rw [head.nodes_close]
  refine List.forall_mem_cons.mpr ⟨hown, List.forall_mem_append.mpr ⟨?_, hinverse⟩⟩
  exact List.forall_mem_append.mpr
    ⟨fun n hn => .of_closesAt? (head.call.closesAt? n hn),
      List.forall_mem_cons.mpr ⟨trivial, hprogram⟩⟩

/-- The nodes of a block in an else chain are nodes of the chain. -/
theorem nodes_subset_of_closeChain {head : BlockHead} {program : List Statement}
    {inverse : Option Block} {outer : List ChainLink} {stop : Nat}
    (h : (closeChain (head.close program inverse stop) outer stop).nodes ⊆ nodes) :
    statementsNodes program ⊆ nodes ∧ inverseNodes inverse ⊆ nodes := by
  have hown : (head.close program inverse stop).nodes ⊆ nodes :=
    List.Subset.trans
      (nodes_subset_of_chain (closeChain_chain (head.close program inverse stop) outer)) h
  rw [head.nodes_close] at hown
  obtain ⟨hinner, hinverse⟩ := List.append_subset.mp (List.cons_subset.mp hown).2
  exact ⟨(List.cons_subset.mp (List.append_subset.mp hinner).2).2, hinverse⟩

mutual
theorem ReadsStatements.readFrom {c d : Cursor} {ss : List Statement} :
    ReadsStatements c ss d → root.Reaches c → statementsNodes ss ⊆ nodes →
      ∀ n ∈ statementsNodes ss, n.ReadFrom root nodes
  | .nil, _, _ => fun _ h => nomatch h
  | .leaf hi hs, hr, hn => by
      obtain ⟨-, hrest⟩ := List.append_subset.mp hn
      exact List.forall_mem_append.mpr
        ⟨fun n hn => .of_closesAt? (hi.leaf_closesAt? n hn),
          hs.readFrom (hr.trans hi.reaches) hrest⟩
  | .whole hi hw hs, hr, hn => by
      obtain ⟨-, hrest⟩ := List.append_subset.mp hn
      exact List.forall_mem_append.mpr
        ⟨element_readFrom rfl hr (.whole hi hw .nil) fun _ h => (nomatch h),
          hs.readFrom (hr.trans hi.reaches) hrest⟩
  | .element hi hw hc hcl hs, hr, hn => by
      obtain ⟨hown, hrest⟩ := List.append_subset.mp hn
      have hchildren := (List.append_subset.mp (List.cons_subset.mp hown).2).2
      have hreach := hr.trans (hi.reaches.trans (hc.reaches.trans hcl.reaches))
      exact List.forall_mem_append.mpr
        ⟨element_readFrom rfl hr (.element hi hw hc hcl .nil)
          (hc.readFrom (hr.trans hi.reaches) hchildren), hs.readFrom hreach hrest⟩
  | .block hi hb hs, hr, hn => by
      obtain ⟨hown, hrest⟩ := List.append_subset.mp hn
      have hreach := hr.trans (hi.reaches.trans hb.reaches)
      exact List.forall_mem_append.mpr
        ⟨hb.readFrom hr (.head hi rfl) hown, hs.readFrom hreach hrest⟩
theorem ReadsBlock.readFrom {name : String} {outer : List ChainLink} {head : BlockHead}
    {a c d : Cursor} {b : BlockStatement} :
    ReadsBlock name head c b d → root.Reaches a → OpenChain name a outer head c →
      (closeChain b outer b.span.stop).nodes ⊆ nodes → ∀ n ∈ b.nodes, n.ReadFrom root nodes
  | .close hp hcl, hr, ho, hn => by
      have hc := hr.trans ho.precedes.reaches
      obtain ⟨hprogram, -⟩ := nodes_subset_of_closeChain hn
      exact block_readFrom rfl ⟨name, outer, head, a, c, d, hr, ho, .close hp hcl, hn⟩
        (hp.readFrom hc hprogram) (fun _ h => nomatch h)
  | .inverse hp he hv hcl, hr, ho, hn => by
      have hc := hr.trans ho.precedes.reaches
      have hbehind := hc.trans (hp.reaches.trans he.reaches)
      obtain ⟨hprogram, hinverse⟩ := nodes_subset_of_closeChain hn
      exact block_readFrom rfl ⟨name, outer, head, a, c, d, hr, ho, .inverse hp he hv hcl, hn⟩
        (hp.readFrom hc hprogram) (List.forall_mem_cons.mpr
          ⟨trivial, hv.readFrom hbehind (List.cons_subset.mp hinverse).2⟩)
  | .chain hp he hb, hr, ho, hn => by
      have hc := hr.trans ho.precedes.reaches
      obtain ⟨hprogram, -⟩ := nodes_subset_of_closeChain hn
      -- the chain of the inner block has one link more, and its first block is the same
      have hinner := hb.readFrom hr (.link ho hp he) hn
      exact block_readFrom rfl ⟨name, outer, head, a, c, d, hr, ho, .chain hp he hb, hn⟩
        (hp.readFrom hc hprogram) (List.forall_mem_cons.mpr
          ⟨trivial, List.forall_mem_append.mpr ⟨hinner, fun _ h => nomatch h⟩⟩)
end

end

/-! ## Offsets of closing marks -/

/-- Elements and blocks that are closed between two offsets, apart from each other. -/
structure ClosedWithin (start stop : Nat) (nodes : List Node) : Prop where
  within : ∀ n ∈ nodes, ∀ offset ∈ n.closesAt?, start < offset ∧ offset ≤ stop
  apart : nodes.Pairwise Node.ClosesApart

namespace ClosedWithin

variable {start mid stop : Nat} {n : Node} {nodes behind : List Node}

theorem of_closesAt? (h : ∀ n ∈ nodes, n.closesAt? = none) : ClosedWithin start stop nodes where
  within n hn offset ho := by
    rw [h n hn] at ho
    cases ho
  apart := List.pairwise_of_forall_mem_list fun n hn n' _ offset ho => by
    rw [h n hn] at ho
    cases ho

theorem widen {start' stop' : Nat} (h : ClosedWithin start stop nodes) (hstart : start' ≤ start)
    (hstop : stop ≤ stop') : ClosedWithin start' stop' nodes where
  within n hn offset ho :=
    ⟨Nat.lt_of_le_of_lt hstart (h.within n hn offset ho).1,
      Nat.le_trans (h.within n hn offset ho).2 hstop⟩
  apart := h.apart

/-- What is closed up to an offset is closed apart from what is closed behind it. -/
theorem append (h : ClosedWithin start mid nodes) (h' : ClosedWithin mid stop behind)
    (hstart : start ≤ mid) (hstop : mid ≤ stop) : ClosedWithin start stop (nodes ++ behind) where
  within := List.forall_mem_append.mpr
    ⟨(h.widen (Nat.le_refl _) hstop).within, (h'.widen hstart (Nat.le_refl _)).within⟩
  apart := by
    refine List.pairwise_append.mpr ⟨h.apart, h'.apart, fun n hn n' hn' offset ho ho' => ?_⟩
    have hle := (h.within n hn offset ho).2
    have hlt := (h'.within n' hn' offset ho').1
    exact absurd hle (Nat.not_le_of_lt hlt)

/-- What is closed earlier is not closed at a later offset. -/
theorem not_closesAt (h : ClosedWithin start mid nodes) (hlt : mid < stop) :
    ∀ n ∈ nodes, stop ∉ n.closesAt? :=
  fun n hn hstop => absurd (h.within n hn stop hstop).2 (Nat.not_le_of_lt hlt)

theorem cons_quiet (h : ClosedWithin start stop nodes) (hn : n.closesAt? = none) :
    ClosedWithin start stop (n :: nodes) where
  within := by
    refine List.forall_mem_cons.mpr ⟨fun offset ho => ?_, h.within⟩
    rw [hn] at ho
    cases ho
  apart := by
    refine List.pairwise_cons.mpr ⟨fun n' _ offset ho => ?_, h.apart⟩
    rw [hn] at ho
    cases ho

/-- A node may be closed together with nodes in it that belong to its else chain. -/
theorem cons (h : ClosedWithin start stop nodes) (hn : n.closesAt? = some stop)
    (hlt : start < stop) (hshared : ∀ n' ∈ nodes, stop ∈ n'.closesAt? → n.SameChain n') :
    ClosedWithin start stop (n :: nodes) where
  within := by
    refine List.forall_mem_cons.mpr ⟨fun offset ho => ?_, h.within⟩
    obtain rfl : stop = offset := Option.some.inj (hn.symm.trans ho)
    exact ⟨hlt, Nat.le_refl _⟩
  apart := by
    refine List.pairwise_cons.mpr ⟨fun n' hn' offset ho ho' => ?_, h.apart⟩
    obtain rfl : stop = offset := Option.some.inj (hn.symm.trans ho)
    exact hshared n' hn' ho'

/-- An element is closed behind all that stands in it. -/
theorem element {tag : OpeningTag} {children : List Statement}
    (h : ClosedWithin start mid (statementsNodes children)) (hstart : start ≤ mid)
    (hlt : mid < stop) : ClosedWithin start stop (tag.close children stop).nodes := by
  have hinner : ClosedWithin start mid
      (tag.attributes.flatMap Attribute.nodes ++ tag.modifiers.flatMap Mustache.nodes ++
        statementsNodes children) :=
    (of_closesAt? tag.closesAt?).append h (Nat.le_refl _) hstart
  exact (hinner.widen (Nat.le_refl _) (Nat.le_of_lt hlt)).cons rfl (Nat.lt_of_le_of_lt hstart hlt)
    fun n' hn' ho => absurd ho (hinner.not_closesAt hlt n' hn')

/-- A block is closed behind its program, and together with its inverse only where its else chain
goes on there. -/
theorem block {head : BlockHead} {program : List Statement} {inverse : Option Block}
    (hprogram : ClosedWithin start mid (statementsNodes program))
    (hinverse : ClosedWithin mid stop (inverseNodes inverse)) (hstart : start ≤ mid)
    (hlt : mid < stop)
    (hshared : ∀ n ∈ inverseNodes inverse, stop ∈ n.closesAt? →
      Node.SameChain ⟨.blockStatement, head.close program inverse stop⟩ n) :
    ClosedWithin start stop (head.close program inverse stop).nodes ∧
      ∀ n ∈ (head.close program inverse stop).nodes, stop ∈ n.closesAt? →
        n = ⟨.blockStatement, head.close program inverse stop⟩ ∨
          Node.SameChain ⟨.blockStatement, head.close program inverse stop⟩ n := by
  have hfront : ClosedWithin start mid
      (head.call.nodes ++ ⟨.block, ⟨program, head.params⟩⟩ :: statementsNodes program) :=
    (of_closesAt? head.call.closesAt?).append (hprogram.cons_quiet rfl) (Nat.le_refl _) hstart
  have hinner := hfront.append hinverse hstart (Nat.le_of_lt hlt)
  have hchain : ∀ n ∈ head.call.nodes ++ ⟨.block, ⟨program, head.params⟩⟩ ::
      statementsNodes program ++ inverseNodes inverse, stop ∈ n.closesAt? →
        Node.SameChain ⟨.blockStatement, head.close program inverse stop⟩ n :=
    List.forall_mem_append.mpr
      ⟨fun n hn ho => absurd ho (hfront.not_closesAt hlt n hn), hshared⟩
  rw [head.nodes_close]
  exact ⟨hinner.cons rfl (Nat.lt_of_le_of_lt hstart hlt) hchain,
    List.forall_mem_cons.mpr ⟨fun _ => .inl rfl, fun n hn ho => .inr (hchain n hn ho)⟩⟩

end ClosedWithin

mutual
theorem ReadsStatements.closedWithin {c d : Cursor} {ss : List Statement} :
    ReadsStatements c ss d → ClosedWithin c.offset d.offset (statementsNodes ss)
  | .nil => .of_closesAt? fun _ h => nomatch h
  | .leaf hi hs =>
      ClosedWithin.append (.of_closesAt? hi.leaf_closesAt?) hs.closedWithin
        hi.reaches.offset_le hs.reaches.offset_le
  | .whole hi hw hs => by
      rw [hi.openTag_span]
      exact ClosedWithin.append
        (.element (.of_closesAt? fun _ h => nomatch h) (Nat.le_refl _) hi.precedes.offset_lt)
        hs.closedWithin hi.reaches.offset_le hs.reaches.offset_le
  | .element hi hw hc hcl hs => by
      have hreach := hi.reaches.trans hc.reaches
      have hchildren := hc.closedWithin.widen hi.reaches.offset_le (Nat.le_refl _)
      rw [hcl.closeTag_span]
      exact (hchildren.element hreach.offset_le hcl.precedes.offset_lt).append hs.closedWithin
        (hreach.trans hcl.reaches).offset_le hs.reaches.offset_le
  | .block hi hb hs => by
      have hblock := hb.closedWithin.1.widen hi.reaches.offset_le (Nat.le_refl _)
      exact hblock.append hs.closedWithin (hi.reaches.trans hb.reaches).offset_le
        hs.reaches.offset_le
theorem ReadsBlock.closedWithin {name : String} {head : BlockHead} {c d : Cursor}
    {b : BlockStatement} : ReadsBlock name head c b d →
      ClosedWithin c.offset d.offset b.nodes ∧ ∀ n ∈ b.nodes, d.offset ∈ n.closesAt? →
        n = ⟨.blockStatement, b⟩ ∨ Node.SameChain ⟨.blockStatement, b⟩ n
  | .close hp hcl => by
      rw [hcl.closeBlock_span]
      exact hp.closedWithin.block (.of_closesAt? fun _ h => nomatch h) hp.reaches.offset_le
        hcl.precedes.offset_lt fun _ h => nomatch h
  | .inverse (d := m) hp he hv hcl => by
      rw [hcl.closeBlock_span]
      have hlt := hcl.precedes.offset_lt
      have hinverse : ClosedWithin m.offset _ (inverseNodes (some ⟨_, []⟩)) :=
        (hv.closedWithin.widen he.reaches.offset_le (Nat.le_refl _)).cons_quiet rfl
      exact hp.closedWithin.block (hinverse.widen (Nat.le_refl _) (Nat.le_of_lt hlt))
        hp.reaches.offset_le
        (Nat.lt_of_le_of_lt (he.reaches.trans hv.reaches).offset_le hlt)
        fun n hn ho => absurd ho (hinverse.not_closesAt hlt n hn)
  | .chain (d := m) (b := x) hp he hb => by
      obtain ⟨hinner, hlast⟩ := hb.closedWithin
      have hinverse : ClosedWithin m.offset d.offset (inverseNodes (some ⟨[.block x], []⟩)) := by
        rw [inverseNodes_chained]
        exact (hinner.widen he.reaches.offset_le (Nat.le_refl _)).cons_quiet rfl
      have hspan := congrArg Span.stop hb.span_eq
      rw [hspan]
      -- what ends with this block is the inner block or behind it in the chain
      refine hp.closedWithin.block hinverse hp.reaches.offset_le
        (Nat.lt_of_lt_of_le he.precedes.offset_lt hb.reaches.offset_le) ?_
      rw [inverseNodes_chained]
      exact List.forall_mem_cons.mpr ⟨fun ho => (nomatch ho),
        fun n hn ho => .of_chains ⟨rfl, hspan⟩ (hlast n hn ho)⟩
end

/-! ## The text of an element -/

theorem OpeningTag.closedBy_closing {tag : OpeningTag} (h : tag.isWhole = true)
    (children : List Statement) (stop : Nat) :
    (tag.close children stop).ClosedBy (closing tag.selfClosing) := by
  show if tag.selfClosing then _ else if Element.voidTags.contains tag.tag then _ else _
  rw [isWhole] at h
  cases hself : tag.selfClosing with
  | true => exact rfl
  | false =>
      rw [hself, Bool.false_or] at h
      rw [if_neg Bool.false_ne_true, if_pos h]
      rfl

theorem OpeningTag.closedBy_closingTag {tag : OpeningTag} (h : tag.isWhole = false)
    (children : List Statement) (stop : Nat) {text : List Char} (ht : ClosesTag tag.tag text) :
    (tag.close children stop).ClosedBy text := by
  obtain ⟨hself, hvoid⟩ := Bool.or_eq_false_iff.mp h
  show if tag.selfClosing then _ else if Element.voidTags.contains tag.tag then _ else _
  rwa [hself, hvoid, if_neg Bool.false_ne_true, if_neg Bool.false_ne_true]

/-- An element covers its opening tag, its content and what closes it. -/
theorem ReadsStatements.element_passes {c d : Cursor} {e : Element}
    (h : ReadsStatements c [.element e] d) :
    e.span = d.spanFrom c.offset ∧ ∃ content closing,
      c.Passes (Token.tagOpen ++ e.tag.toList ++ content ++ closing) d ∧ e.ClosedBy closing := by
  cases h with
  | leaf hi hs => cases hi
  | whole hi hw hs =>
      cases hs
      obtain ⟨content, hpass⟩ := hi.openTag_passes
      exact ⟨hi.openTag_span, content, _, hpass, OpeningTag.closedBy_closing hw ..⟩
  | @element _ _ _ _ _ tag _ _ _ hi hw hc hcl hs =>
      cases hs
      obtain ⟨content, hpass⟩ := hi.openTag_passes
      obtain ⟨children, hchildren⟩ := hc.reaches
      obtain ⟨closing, hclosing, hcloses⟩ := hcl.closeTag_passes
      refine ⟨?_, content ++ OpeningTag.closing tag.selfClosing ++ children, closing, ?_,
        OpeningTag.closedBy_closingTag hw _ _ hcloses⟩
      · rw [OpeningTag.close, hi.openTag_span, hcl.closeTag_span]
        rfl
      · have htext := (hpass.append hchildren).append hclosing
        simp only [List.append_assoc] at htext ⊢
        exact htext

/-! ## The text of a block -/

section
variable {source : List Char} {nodes : List Node}

theorem ReadsBlock.slice? {name : String} {head : BlockHead} {a c d : Cursor}
    {b : BlockStatement} {opening front : List Char} (h : ReadsBlock name head c b d)
    (hr : (ofChars source).Reaches a) (hpass : a.Passes (opening ++ front) c)
    (hstart : head.start = a.offset) : ∃ content closing,
      b.span.slice? source = some (opening ++ content ++ closing) ∧ ClosesBlock name closing := by
  obtain ⟨closing, hcloses, content, hcontent⟩ := h.passes
  obtain ⟨hslice, -⟩ := slice?_of_places hr (hpass.append hcontent)
  refine ⟨front ++ content, closing, ?_, hcloses⟩
  rw [h.span_eq, hstart, hslice]
  simp only [List.append_assoc]

/-- Where a chained block starts an else mark stands. -/
theorem IsChained.slice? {b : BlockStatement}
    (hread : ∀ n ∈ nodes, n.ReadFrom (ofChars source) nodes) (h : IsChained nodes b) :
    ∃ behind, b.span.slice? source = some (Token.elseOpen ++ behind) := by
  obtain ⟨outer, hmem, hlink⟩ := h
  obtain ⟨name, links, head, a, c, d, hr, ho, hb, -⟩ := hread _ hmem
  obtain ⟨head', mark, c₁, c₂, hreach, he, hinner⟩ := hb.of_chains hlink
  obtain ⟨front, hpass, -⟩ := he.chainedElse_passes (.refl _)
  have hplace := hr.trans (ho.precedes.reaches.trans hreach)
  obtain ⟨content, closing, hslice, -⟩ := hinner.slice? hplace hpass he.chainedElse_start
  exact ⟨content ++ closing, by rw [hslice, List.append_assoc]⟩

/-- A block with an opening mark of its own is chained to no other. -/
theorem ReadsBlock.not_isChained {name : String} {head : BlockHead} {a c d : Cursor}
    {b : BlockStatement} (h : ReadsBlock name head c b d)
    (hread : ∀ n ∈ nodes, n.ReadFrom (ofChars source) nodes) (hr : (ofChars source).Reaches a)
    (hi : ReadsItem a (.openBlock head) c) : ¬ IsChained nodes b := by
  intro hchained
  obtain ⟨behind, hslice⟩ := hchained.slice? hread
  obtain ⟨front, hpass⟩ := hi.openBlock_passes
  obtain ⟨content, closing, hslice', -⟩ := h.slice? hr hpass hi.openBlock_start
  rw [hslice] at hslice'
  simp [Token.elseOpen, Token.blockOpen] at hslice'

/-- Every block stands in an else chain. -/
theorem Node.ReadFrom.beginsChain {b : BlockStatement}
    (h : Node.ReadFrom (ofChars source) nodes ⟨.blockStatement, b⟩)
    (hread : ∀ n ∈ nodes, n.ReadFrom (ofChars source) nodes) :
    ∃ first, BeginsChain nodes first b := by
  obtain ⟨name, outer, head, a, c, d, hr, ho, hb, hsub⟩ := h
  obtain ⟨first, c₁, hi, hfirst⟩ := ho.close hb
  exact ⟨_, hsub (BlockStatement.mem_nodes _), hfirst.not_isChained hread hr hi,
    closeChain_chain b outer⟩

/-- The first block of an else chain has an opening mark, and its name is that of the chain. -/
theorem Node.ReadFrom.openBlock {first : BlockStatement}
    (h : Node.ReadFrom (ofChars source) nodes ⟨.blockStatement, first⟩)
    (houtermost : ¬ IsChained nodes first) : first.nodes ⊆ nodes ∧
      ∃ head a c d, (ofChars source).Reaches a ∧ ReadsItem a (.openBlock head) c ∧
        ReadsBlock (first.call.calleeText?.getD "") head c first d := by
  obtain ⟨name, outer, head, a, c, d, hr, ho, hb, hsub⟩ := h
  cases outer with
  | nil =>
      cases ho with
      | head hi hn =>
          obtain rfl : name = first.call.calleeText?.getD "" := by
            rw [← hn, BlockHead.name, hb.call_eq]
          exact ⟨hsub, head, a, c, d, hr, hi, hb⟩
  | cons link outer =>
      have hmem := nodes_subset_of_chain (closeChain_chain
        (link.head.close link.program (some ⟨[.block first], []⟩) first.span.stop) outer)
        (BlockStatement.mem_nodes _)
      exact absurd ⟨_, hsub hmem, link.head.chains_close ..⟩ houtermost

/-- A block of an else chain ends with the closing mark of the first one. -/
theorem BeginsChain.slice? {first b : BlockStatement} (h : BeginsChain nodes first b)
    (hread : ∀ n ∈ nodes, n.ReadFrom (ofChars source) nodes) :
    ∃ opening content closing, b.span.slice? source = some (opening ++ content ++ closing) ∧
      (IsChained nodes b → opening = Token.elseOpen) ∧
      (¬ IsChained nodes b → opening = Token.blockOpen) ∧
      ClosesBlock (first.call.calleeText?.getD "") closing := by
  obtain ⟨hsub, head, a, c, d, hr, hi, hfirst⟩ := (hread _ h.mem).openBlock h.outermost
  -- the block is the first one itself, or it stands behind the else mark of the one before it
  rcases h.chain.cases_tail with rfl | ⟨x, hchain, hlink⟩
  · obtain ⟨front, hpass⟩ := hi.openBlock_passes
    obtain ⟨content, closing, hslice, hcloses⟩ := hfirst.slice? hr hpass hi.openBlock_start
    exact ⟨_, content, closing, hslice, fun hx => absurd hx h.outermost, fun _ => rfl, hcloses⟩
  · obtain ⟨headx, cx, hreach, hx⟩ := hfirst.of_chain hchain
    obtain ⟨head', mark, c₁, c₂, hreach', he, hb⟩ := hx.of_chains hlink
    obtain ⟨front, hpass, -⟩ := he.chainedElse_passes (.refl _)
    have hplace := hr.trans (hi.reaches.trans (hreach.trans hreach'))
    obtain ⟨content, closing, hslice, hcloses⟩ := hb.slice? hplace hpass he.chainedElse_start
    have hchained : IsChained nodes b :=
      ⟨x, hsub (nodes_subset_of_chain hchain x.mem_nodes), hlink⟩
    exact ⟨_, content, closing, hslice, fun _ => rfl, fun hx => absurd hchained hx, hcloses⟩

end

/-! ## Templates -/

/-- The marks of a tree that was read match. -/
theorem Template.bracketed_of_parse {source filename : String} {t : Template}
    (h : Template.parse source filename = .ok t) : t.Bracketed source.toList := by
  obtain ⟨-, d, hbody, -⟩ := ofChars_eq_ok_iff.mp (ofChars_of_parse h)
  have hread : ∀ n ∈ t.nodes, n.ReadFrom (Cursor.ofChars source.toList) t.nodes :=
    List.forall_mem_cons.mpr
      ⟨trivial, hbody.readFrom (.refl _) (List.subset_cons_self _ _)⟩
  constructor
  case elements =>
    intro e he
    obtain ⟨c, d, hr, hstands⟩ := hread _ he
    obtain ⟨hspan, content, closing, hpass, hcloses⟩ := hstands.element_passes
    exact ⟨content, closing, hspan ▸ (slice?_of_places hr hpass).1, hcloses⟩
  case chains => exact fun b hb => (hread _ hb).beginsChain hread
  case blocks => exact fun first b hb => hb.slice? hread
  case apart => exact (hbody.closedWithin.cons_quiet (n := ⟨.template, t⟩) rfl).apart

/-- A source with an else chain, an element in an element, a void and a self-closing one. -/
def bracketSource : String :=
  "<p><b>ä</b ><br></p>\x7b\x7b#if a\x7d\x7d<i/>\x7b\x7belse unless b\x7d\x7d" ++
    "\x7b\x7belse\x7d\x7d\x7b\x7b#each c\x7d\x7d\x7b\x7b/each\x7d\x7d\x7b\x7b/ if \x7d\x7d"

theorem Template.bracketed_of_parse_chain :
    ∃ t, Template.parse bracketSource "brackets.hbs" = .ok t ∧
      t.Bracketed bracketSource.toList := by
  have hok : (Template.parse bracketSource "brackets.hbs").isOk = true := by decide +kernel
  cases h : Template.parse bracketSource "brackets.hbs" with
  | error e =>
      rw [h] at hok
      exact Bool.noConfusion hok
  | ok t => exact ⟨t, rfl, bracketed_of_parse h⟩

end Bracework
