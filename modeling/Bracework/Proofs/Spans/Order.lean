/-
Spans — where the nodes begin that a walk visits.

A walk goes through the fields of a tree, and the places of a source follow each other as
they were read.  The two agree wherever a field holds what was read before the next field.
An element is the exception: it keeps its attributes apart from its modifiers, and a walk
visits all attributes before the first modifier, wherever in the tag they were written.
Nothing else is visited out of order, so the offsets at which the visited nodes begin ascend
exactly if no modifier of an element is written in front of an attribute.
-/
import Bracework.Proofs.Spans.Brackets
import Bracework.Proofs.Validity.Visited

namespace Bracework

open Reading Cursor

/-! ## Where nodes begin -/

/-- The offset at which a node begins; a template and a block have none. -/
def Node.start? (n : Node) : Option Nat := n.span?.map Span.start

/-- A node does not begin behind another. -/
def Node.InOrder (n n' : Node) : Prop := ∀ i ∈ n.start?, ∀ j ∈ n'.start?, i ≤ j

/-- No modifier of an element is written in front of an attribute. -/
def Element.AttributesFirst (e : Element) : Prop :=
  ∀ a ∈ e.attributes, ∀ m ∈ e.modifiers, a.span.start ≤ m.span.start

/-- The offsets at which the nodes begin that a walk visits, in the order of the walk. -/
def Template.visitedStarts (t : Template) : List Nat := t.visited.filterMap Node.start?

/-- Nodes begin between two offsets, and in order exactly if those of every tag do. -/
structure LaidOut (start stop : Nat) (nodes : List Node) : Prop where
  within : ∀ n ∈ nodes, ∀ i ∈ n.start?, start ≤ i ∧ i ≤ stop
  inOrder_iff : nodes.Pairwise Node.InOrder ↔
    ∀ e : Element, ⟨.element, e⟩ ∈ nodes → e.AttributesFirst

namespace LaidOut

variable {start mid stop : Nat} {n : Node} {nodes behind : List Node}

theorem nil : LaidOut start stop [] :=
  ⟨fun _ h => (nomatch h), iff_of_true .nil fun _ h => nomatch h⟩

theorem widen {start' stop' : Nat} (h : LaidOut start stop nodes) (hstart : start' ≤ start)
    (hstop : stop ≤ stop') : LaidOut start' stop' nodes where
  within n hn i hi :=
    ⟨Nat.le_trans hstart (h.within n hn i hi).1, Nat.le_trans (h.within n hn i hi).2 hstop⟩
  inOrder_iff := h.inOrder_iff

/-- What begins up to an offset is in order with what begins from there on. -/
theorem cross (h : LaidOut start mid nodes) (h' : LaidOut mid stop behind) :
    ∀ n ∈ nodes, ∀ n' ∈ behind, n.InOrder n' :=
  fun n hn n' hn' i hi j hj => Nat.le_trans (h.within n hn i hi).2 (h'.within n' hn' j hj).1

theorem append (h : LaidOut start mid nodes) (h' : LaidOut mid stop behind)
    (hstart : start ≤ mid) (hstop : mid ≤ stop) : LaidOut start stop (nodes ++ behind) where
  within := List.forall_mem_append.mpr
    ⟨(h.widen (Nat.le_refl _) hstop).within, (h'.widen hstart (Nat.le_refl _)).within⟩
  inOrder_iff := by
    rw [List.pairwise_append, h.inOrder_iff, h'.inOrder_iff]
    simp only [List.mem_append, or_imp, forall_and]
    exact and_congr_right fun _ => and_iff_left (h.cross h')

/-- A node that is no element may stand in front if it begins where the others may. -/
theorem cons (h : LaidOut start stop nodes) (hkind : (n.kind == .element) = false)
    (hn : ∀ i ∈ n.start?, i = start) (hle : start ≤ stop) : LaidOut start stop (n :: nodes) where
  within := by
    refine List.forall_mem_cons.mpr ⟨fun i hi => ?_, h.within⟩
    obtain rfl := hn i hi
    exact ⟨Nat.le_refl _, hle⟩
  inOrder_iff := by
    have hfirst : ∀ n' ∈ nodes, n.InOrder n' :=
      fun n' hn' i hi j hj => hn i hi ▸ (h.within n' hn' j hj).1
    rw [List.pairwise_cons, h.inOrder_iff]
    refine (and_iff_right hfirst).trans (forall_congr' fun e => imp_congr_left ?_)
    refine ⟨List.mem_cons_of_mem _, fun he => (List.mem_cons.mp he).resolve_left ?_⟩
    rintro rfl
    cases hkind

theorem singleton (hkind : (n.kind == .element) = false) (hn : n.start? = some start)
    (hle : start ≤ stop) : LaidOut start stop [n] :=
  nil.cons hkind (fun _ hi => (Option.some.inj (hn.symm.trans hi)).symm) hle

/-- Nodes inside a tag or a curly mark are in order. -/
theorem inOrder_of_inline (h : LaidOut start stop nodes)
    (hinline : Everywhere Node.isInline nodes) : nodes.Pairwise Node.InOrder :=
  h.inOrder_iff.mpr fun _ he => nomatch hinline _ he

end LaidOut

/-! ## Expressions and calls -/

namespace Reading

mutual
theorem ReadsExpression.laidOut {c d : Cursor} {e : Expression} :
    ReadsExpression c e d → LaidOut c.offset d.offset e.nodes
  | .sub (d := e) hc hi hcl => by
      have hin := (c.reaches_advance 1).trans (reaches_skipSpace _)
      have hout := e.reaches_skipSpace.trans (reaches_advance _ Token.subClose.length)
      have hcall := hi.laidOut.widen hin.offset_le hout.offset_le
      exact hcall.cons rfl (fun _ hi => (Option.some.inj hi).symm)
        (ReadsExpression.sub hc hi hcl).reaches.offset_le
  | .string _ _ _ => .nil
  | .numeral _ _ _ => .nil
  | .word _ _ _ => by
      unfold Expression.ofWord
      repeat' split
      · exact .nil
      · exact .nil
      · exact .nil
      · exact .nil
      · exact .singleton rfl rfl (c.reaches_skip _).offset_le
theorem ReadsCall.laidOut {c d : Cursor} {call : Call} :
    ReadsCall c call d → LaidOut c.offset d.offset call.nodes
  | .call _ he ha => by
      have hcallee := he.laidOut
      have harguments := ha.laidOut
      rw [Call.nodes, List.append_assoc]
      exact hcallee.append harguments he.reaches.offset_le ha.reaches.offset_le
/-- A named argument has no positional one behind it, so the positional ones come first. -/
theorem ReadsArguments.laidOut {c d : Cursor} {named : Bool} {params : List Expression}
    {hash : List (String × Expression)} : ReadsArguments c named params hash d →
      LaidOut c.offset d.offset (paramsNodes params ++ hashNodes hash)
  | .done _ => .nil
  | @ReadsArguments.named _ _ _ _ name _ _ _ _ _ he ha => by
      have hin : c.Reaches (behindName c.skipSpace name) :=
        c.reaches_skipSpace.trans ((reaches_advance ..).trans (reaches_skipSpace _))
      have hvalue := he.laidOut.widen hin.offset_le (Nat.le_refl _)
      have hrest := ha.laidOut
      obtain rfl := ha.params_eq_nil rfl
      exact hvalue.append hrest (hin.trans he.reaches).offset_le ha.reaches.offset_le
  | .positional _ _ he ha => by
      have hin := c.reaches_skipSpace
      have hvalue := he.laidOut.widen hin.offset_le (Nat.le_refl _)
      rw [paramsNodes, List.append_assoc]
      exact hvalue.append ha.laidOut (hin.trans he.reaches).offset_le ha.reaches.offset_le
end

theorem ReadsMustache.laidOut {c d : Cursor} {m : Mustache} (h : ReadsMustache c m d) :
    LaidOut c.offset d.offset m.nodes := by
  have hreach := h.reaches
  cases h with
  | @mustache e trusting _ _ _ hc _ =>
      have hin := (c.reaches_advance (Mustache.opening trusting).length).trans
        (reaches_skipSpace _)
      have hout := e.reaches_skipSpace.trans
        (reaches_advance _ (Mustache.closing trusting).length)
      exact (hc.laidOut.widen hin.offset_le hout.offset_le).cons rfl
        (fun _ hi => (Option.some.inj hi).symm) hreach.offset_le

theorem ReadsMustache.span_eq {c d : Cursor} {m : Mustache} (h : ReadsMustache c m d) :
    m.span = d.spanFrom c.offset := by
  cases h
  rfl

theorem ReadsBlockHead.laidOut {c d : Cursor} {start : Nat} {head : BlockHead}
    (h : ReadsBlockHead c start head d) : LaidOut c.offset d.offset head.call.nodes := by
  cases h with
  | head hc hp =>
      exact hc.laidOut.widen (Nat.le_refl _) ((reaches_skipSpace _).trans hp.reaches).offset_le

/-! ## Opening tags -/

theorem frontPart_laidOut (quote : Char) (c : Cursor) :
    LaidOut c.offset (behindText quote c).offset
      ((frontPart quote c).flatMap AttributePart.nodes) := by
  rw [frontPart, textPart]
  split
  · exact .nil
  · exact .singleton rfl rfl (c.reaches_advance _).offset_le

theorem ReadsParts.laidOut {quote : Char} {c d : Cursor} {pieces : List AttributePart}
    (h : ReadsParts quote c pieces d) :
    LaidOut c.offset d.offset (pieces.flatMap AttributePart.nodes) := by
  induction h with
  | @close c _ _ =>
      exact (frontPart_laidOut quote c).widen (Nat.le_refl _) (reaches_advance ..).offset_le
  | @mustache c _ _ _ _ _ _ _ _ hm hp ih =>
      have hin : c.Reaches (behindText quote c) := reaches_advance ..
      rw [List.flatMap_append, List.flatMap_cons]
      exact (frontPart_laidOut quote c).append
        (hm.laidOut.append ih hm.reaches.offset_le hp.reaches.offset_le) hin.offset_le
        (hm.reaches.trans hp.reaches).offset_le

theorem valueOfParts_laidOut {c d : Cursor} {pieces : List AttributePart} (h : c.Reaches d)
    (hp : LaidOut c.offset d.offset (pieces.flatMap AttributePart.nodes)) :
    LaidOut c.offset d.offset (valueOfParts (d.spanFrom c.offset) pieces).nodes := by
  unfold valueOfParts
  split
  · exact .singleton rfl rfl h.offset_le
  · simpa [AttributeValue.nodes, AttributePart.nodes] using hp
  · exact hp

theorem ReadsValue.laidOut {c d : Cursor} {v : AttributeValue} (h : ReadsValue c v d) :
    LaidOut c.offset d.offset v.nodes := by
  have hreach := h.reaches
  cases h with
  | mustache _ hm => exact hm.laidOut
  | quoted _ _ _ hp =>
      exact valueOfParts_laidOut hreach
        (hp.laidOut.widen (c.reaches_advance 1).offset_le (Nat.le_refl _))
  | bare _ _ => exact .singleton rfl rfl hreach.offset_le

theorem ReadsAttributeTail.laidOut {c d : Cursor} {v : AttributeValue}
    (h : ReadsAttributeTail c v d) : LaidOut c.offset d.offset v.nodes := by
  cases h with
  | value _ hv =>
      have hin := (c.reaches_advance 1).trans (reaches_skipSpace _)
      exact hv.laidOut.widen hin.offset_le (Nat.le_refl _)
  | empty _ => exact .singleton rfl rfl (Nat.le_refl _)

theorem ReadsAttribute.laidOut {c d : Cursor} {a : Attribute} (h : ReadsAttribute c a d) :
    LaidOut c.offset d.offset a.nodes := by
  have hreach := h.reaches
  cases h with
  | attr _ ht =>
      have hin := reaches_behindAttributeName c
      exact (ht.laidOut.widen hin.offset_le (Nat.le_refl _)).cons rfl
        (fun _ hi => (Option.some.inj hi).symm) hreach.offset_le

theorem ReadsAttribute.span_eq {c d : Cursor} {a : Attribute} (h : ReadsAttribute c a d) :
    a.span = d.spanFrom c.offset := by
  cases h
  rfl

theorem ReadsTagBody.laidOut {c d : Cursor} {attributes : List Attribute}
    {modifiers : List Mustache} {selfClosing : Bool}
    (h : ReadsTagBody c attributes modifiers selfClosing d) :
    LaidOut c.offset d.offset (attributes.flatMap Attribute.nodes) ∧
      LaidOut c.offset d.offset (modifiers.flatMap Mustache.nodes) := by
  induction h with
  | selfClose _ => exact ⟨.nil, .nil⟩
  | close _ => exact ⟨.nil, .nil⟩
  | @modifier c _ _ _ _ _ _ _ hm hb ih =>
      have hin := c.reaches_skipSpace
      have hbehind := hin.trans hm.reaches
      have hmustache := hm.laidOut.widen hin.offset_le (Nat.le_refl _)
      exact ⟨ih.1.widen hbehind.offset_le (Nat.le_refl _),
        hmustache.append ih.2 hbehind.offset_le hb.reaches.offset_le⟩
  | @attr c _ _ _ _ _ _ _ _ _ ha hb ih =>
      have hin := c.reaches_skipSpace
      have hbehind := hin.trans ha.reaches
      have hattribute := ha.laidOut.widen hin.offset_le (Nat.le_refl _)
      exact ⟨hattribute.append ih.1 hbehind.offset_le hb.reaches.offset_le,
        ih.2.widen hbehind.offset_le (Nat.le_refl _)⟩

/-- The nodes of a tag are in order exactly if no modifier stands in front of an attribute. -/
theorem ReadsTagBody.inOrder_iff {c d : Cursor} {attributes : List Attribute}
    {modifiers : List Mustache} {selfClosing : Bool}
    (h : ReadsTagBody c attributes modifiers selfClosing d) :
    (attributes.flatMap Attribute.nodes ++ modifiers.flatMap Mustache.nodes).Pairwise
      Node.InOrder ↔ ∀ a ∈ attributes, ∀ m ∈ modifiers, a.span.start ≤ m.span.start := by
  induction h with
  | selfClose _ => exact iff_of_true .nil fun _ h => nomatch h
  | close _ => exact iff_of_true .nil fun _ h => nomatch h
  | @modifier c d e m attributes modifiers selfClosing _ hm hb ih =>
      have hstart : m.span.start = c.skipSpace.offset := congrArg Span.start hm.span_eq
      cases attributes with
      | nil =>
          have hmodifiers := (ReadsTagBody.modifier ‹_› hm hb).laidOut.2
          refine iff_of_true ?_ fun _ h => nomatch h
          exact hmodifiers.inOrder_of_inline (Everywhere.flatMap_iff.mpr fun m _ => m.nodes_inline)
      | cons a attributes =>
          -- an attribute behind the modifier is visited before it
          have hlater : m.span.start < a.span.start := by
            have hwithin := hb.laidOut.1.within ⟨.attr, a⟩ List.mem_cons_self a.span.start rfl
            rw [hstart]
            exact Nat.lt_of_lt_of_le hm.precedes.offset_lt hwithin.1
          refine iff_of_false (fun hpairs => ?_) fun hfirst => ?_
          · have hcross := (List.pairwise_append.mp hpairs).2.2 ⟨.attr, a⟩ List.mem_cons_self
              ⟨.mustache, m⟩ List.mem_cons_self
            exact absurd (hcross _ rfl _ rfl) (Nat.not_le_of_lt hlater)
          · exact absurd (hfirst a List.mem_cons_self m List.mem_cons_self)
              (Nat.not_le_of_lt hlater)
  | @attr c d e a attributes modifiers _ _ _ _ ha hb ih =>
      have hstart : a.span.start = c.skipSpace.offset := congrArg Span.start ha.span_eq
      have hown := ha.laidOut.inOrder_of_inline a.nodes_inline
      have hrest : ∀ n ∈ a.nodes, ∀ n' ∈ attributes.flatMap Attribute.nodes ++
          modifiers.flatMap Mustache.nodes, n.InOrder n' := by
        intro n hn
        exact List.forall_mem_append.mpr
          ⟨ha.laidOut.cross hb.laidOut.1 n hn, ha.laidOut.cross hb.laidOut.2 n hn⟩
      have hfirst : ∀ m ∈ modifiers, a.span.start ≤ m.span.start := by
        intro m hm
        have hmem : ⟨.mustache, m⟩ ∈ modifiers.flatMap Mustache.nodes :=
          List.mem_flatMap.mpr ⟨m, hm, List.mem_cons_self⟩
        exact hrest ⟨.attr, a⟩ List.mem_cons_self _ (List.mem_append_right _ hmem) _ rfl _ rfl
      rw [List.flatMap_cons, List.append_assoc, List.pairwise_append, ih, List.forall_mem_cons]
      exact ⟨fun h => ⟨hfirst, h.2.1⟩, fun h => ⟨hown, h.2, hrest⟩⟩

theorem ReadsItem.openTag_laidOut {c d : Cursor} {tag : OpeningTag}
    (h : ReadsItem c (.openTag tag) d) :
    LaidOut c.offset d.offset (tag.attributes.flatMap Attribute.nodes) ∧
      LaidOut c.offset d.offset (tag.modifiers.flatMap Mustache.nodes) ∧
      ((tag.attributes.flatMap Attribute.nodes ++ tag.modifiers.flatMap Mustache.nodes).Pairwise
        Node.InOrder ↔ ∀ a ∈ tag.attributes, ∀ m ∈ tag.modifiers, a.span.start ≤ m.span.start) := by
  cases h with
  | openingTag _ ht =>
      cases ht with
      | tag _ hb =>
          have hin := ((c.reaches_advance Token.tagOpen.length).trans
            (reaches_skip _ Token.isTagChar)).offset_le
          obtain ⟨hattributes, hmodifiers⟩ := hb.laidOut
          exact ⟨hattributes.widen hin (Nat.le_refl _), hmodifiers.widen hin (Nat.le_refl _),
            hb.inOrder_iff⟩

/-! ## Items -/

theorem ReadsItem.leaf_laidOut {c d : Cursor} {s : Statement} (h : ReadsItem c (.leaf s) d) :
    LaidOut c.offset d.offset s.nodes := by
  have hle := h.reaches.offset_le
  cases h with
  | longRemark _ hc | remark _ hc | comment _ hc =>
      have hstart := congrArg Span.start hc.span_eq
      exact .singleton rfl (congrArg some hstart) hle
  | mustache _ hm => exact hm.laidOut
  | text _ _ => exact .singleton rfl rfl hle

theorem ReadsItem.openBlock_laidOut {c d : Cursor} {head : BlockHead}
    (h : ReadsItem c (.openBlock head) d) : LaidOut c.offset d.offset head.call.nodes := by
  cases h with
  | openingBlock _ hh _ =>
      have hin := (c.reaches_advance Token.blockOpen.length).trans (reaches_skipSpace _)
      exact hh.laidOut.widen hin.offset_le (reaches_advance ..).offset_le

theorem ReadsItem.chainedElse_laidOut {c d : Cursor} {head : BlockHead} {mark : Span}
    (h : ReadsItem c (.elseMark (some head) mark) d) :
    LaidOut c.offset d.offset head.call.nodes := by
  cases h with
  | chainedElse _ _ hh _ =>
      have hin : c.Reaches (behindElse c) := (c.reaches_advance _).trans (reaches_skipSpace _)
      exact hh.laidOut.widen hin.offset_le (reaches_advance ..).offset_le

end Reading

/-! ## Statements -/

/-- An element is in order exactly if its tag and its content are. -/
theorem Reading.ReadsItem.element_laidOut {c d : Cursor} {tag : OpeningTag}
    {children : List Statement} {last stop : Nat} (h : ReadsItem c (.openTag tag) d)
    (hchildren : LaidOut d.offset stop (statementsNodes children)) (hle : d.offset ≤ stop) :
    LaidOut c.offset stop (tag.close children last).nodes := by
  obtain ⟨hattributes, hmodifiers, hfirst⟩ := h.openTag_laidOut
  have hreach := h.reaches.offset_le
  have hstart : tag.span.start = c.offset := congrArg Span.start h.openTag_span
  have hinline : Everywhere Node.isInline
      (tag.attributes.flatMap Attribute.nodes ++ tag.modifiers.flatMap Mustache.nodes) :=
    Everywhere.append_iff.mpr
      ⟨Everywhere.flatMap_iff.mpr fun a _ => a.nodes_inline,
        Everywhere.flatMap_iff.mpr fun m _ => m.nodes_inline⟩
  have hcross : ∀ n ∈ tag.attributes.flatMap Attribute.nodes ++
      tag.modifiers.flatMap Mustache.nodes, ∀ n' ∈ statementsNodes children, n.InOrder n' :=
    List.forall_mem_append.mpr ⟨hattributes.cross hchildren, hmodifiers.cross hchildren⟩
  have hwithin : ∀ n ∈ tag.attributes.flatMap Attribute.nodes ++
      tag.modifiers.flatMap Mustache.nodes ++ statementsNodes children,
        ∀ i ∈ n.start?, c.offset ≤ i ∧ i ≤ stop :=
    List.forall_mem_append.mpr
      ⟨List.forall_mem_append.mpr ⟨(hattributes.widen (Nat.le_refl _) hle).within,
        (hmodifiers.widen (Nat.le_refl _) hle).within⟩,
        (hchildren.widen hreach (Nat.le_refl _)).within⟩
  rw [tag.nodes_close]
  constructor
  case within =>
    refine List.forall_mem_cons.mpr ⟨fun i hi => ?_, hwithin⟩
    obtain rfl : tag.span.start = i := Option.some.inj hi
    exact ⟨Nat.le_of_eq hstart.symm, hstart ▸ Nat.le_trans hreach hle⟩
  case inOrder_iff =>
    rw [List.pairwise_cons, List.pairwise_append, hfirst, hchildren.inOrder_iff]
    constructor
    · rintro ⟨-, hown, hinner, -⟩ e he
      rcases List.mem_cons.mp he with heq | he
      · cases heq
        exact hown
      · rcases List.mem_append.mp he with he | he
        · exact nomatch hinline _ he
        · exact hinner e he
    · intro hall
      refine ⟨fun n hn i hi j hj => ?_, hall _ List.mem_cons_self, fun e he => ?_, hcross⟩
      · obtain rfl : tag.span.start = i := Option.some.inj hi
        exact hstart ▸ (hwithin n hn j hj).1
      · exact hall e (List.mem_cons_of_mem _ (List.mem_append_right _ he))

/-- The nodes of a block are laid out if those of its call, its program and its inverse are. -/
theorem LaidOut.block {head : BlockHead} {program : List Statement} {inverse : Option Block}
    {inside behind stop last : Nat} (hcall : LaidOut head.start inside head.call.nodes)
    (hprogram : LaidOut inside behind (statementsNodes program))
    (hinverse : LaidOut behind stop (inverseNodes inverse)) (hstart : head.start ≤ inside)
    (hinside : inside ≤ behind) (hbehind : behind ≤ stop) :
    LaidOut head.start stop (head.close program inverse last).nodes := by
  have hbody : LaidOut inside behind
      (⟨.block, ⟨program, head.params⟩⟩ :: statementsNodes program) :=
    hprogram.cons rfl (fun _ hi => nomatch hi) hinside
  have hfront := (hcall.append hbody hstart hinside).append hinverse
    (Nat.le_trans hstart hinside) hbehind
  rw [head.nodes_close]
  exact hfront.cons rfl (fun _ hi => (Option.some.inj hi).symm)
    (Nat.le_trans hstart (Nat.le_trans hinside hbehind))

mutual
theorem ReadsStatements.laidOut {c d : Cursor} {ss : List Statement} :
    ReadsStatements c ss d → LaidOut c.offset d.offset (statementsNodes ss)
  | .nil => .nil
  | .leaf hi hs =>
      hi.leaf_laidOut.append hs.laidOut hi.reaches.offset_le hs.reaches.offset_le
  | .whole hi hw hs =>
      (hi.element_laidOut .nil (Nat.le_refl _)).append hs.laidOut hi.reaches.offset_le
        hs.reaches.offset_le
  | .element hi hw hc hcl hs => by
      have hinner := hc.reaches.trans hcl.reaches
      have hchildren := hc.laidOut.widen (Nat.le_refl _) hcl.reaches.offset_le
      exact (hi.element_laidOut hchildren hinner.offset_le).append hs.laidOut
        (hi.reaches.trans hinner).offset_le hs.reaches.offset_le
  | .block (c := c) (d := e) hi hb hs => by
      have hstart := hi.openBlock_start
      have hblock := hb.laidOut (hstart ▸ hi.openBlock_laidOut) (hstart ▸ hi.reaches.offset_le)
      rw [hstart] at hblock
      exact hblock.append hs.laidOut (hi.reaches.trans hb.reaches).offset_le hs.reaches.offset_le
theorem ReadsBlock.laidOut {c d : Cursor} {name : String} {head : BlockHead}
    {b : BlockStatement} : ReadsBlock name head c b d →
      LaidOut head.start c.offset head.call.nodes → head.start ≤ c.offset →
        LaidOut head.start d.offset b.nodes
  | .close hp hcl, hcall, hstart =>
      hcall.block hp.laidOut .nil hstart hp.reaches.offset_le hcl.reaches.offset_le
  | .inverse hp he hv hcl, hcall, hstart => by
      have hinverse : LaidOut _ _ (inverseNodes (some ⟨_, []⟩)) :=
        (hv.laidOut.widen he.reaches.offset_le hcl.reaches.offset_le).cons rfl
          (fun _ hi => nomatch hi) (he.reaches.trans (hv.reaches.trans hcl.reaches)).offset_le
      exact hcall.block hp.laidOut hinverse hstart hp.reaches.offset_le
        (he.reaches.trans (hv.reaches.trans hcl.reaches)).offset_le
  | .chain (d := m) (b := x) hp he hb, hcall, hstart => by
      -- the chained block begins at the else mark, where the program of this one ends
      have hmark := he.chainedElse_start
      have hinner := hb.laidOut (hmark ▸ he.chainedElse_laidOut) (hmark ▸ he.reaches.offset_le)
      have hle := (he.reaches.trans hb.reaches).offset_le
      rw [hmark] at hinner
      have hinverse : LaidOut m.offset d.offset (inverseNodes (some ⟨[.block x], []⟩)) := by
        rw [inverseNodes_chained]
        exact hinner.cons rfl (fun _ hi => nomatch hi) hle
      exact hcall.block hp.laidOut hinverse hstart hp.reaches.offset_le hle
end

/-! ## Templates -/

theorem Template.visitedStarts_eq (t : Template) :
    t.visitedStarts = t.nodes.filterMap Node.start? := by
  rw [visitedStarts, visited_eq]

/-- A walk visits the nodes of a tree that was read in the order in which they begin exactly if no
modifier of an element is written in front of an attribute. -/
theorem Template.visitedStarts_ascend_iff {source filename : String} {t : Template}
    (h : Template.parse source filename = .ok t) :
    t.visitedStarts.Pairwise (· ≤ ·) ↔
      ∀ e : Element, ⟨.element, e⟩ ∈ t.visited → e.AttributesFirst := by
  obtain ⟨-, d, hbody, -⟩ := ofChars_eq_ok_iff.mp (ofChars_of_parse h)
  have htree := hbody.laidOut.cons (n := ⟨.template, t⟩) rfl (fun _ hi => nomatch hi)
    hbody.reaches.offset_le
  rw [visitedStarts, List.pairwise_filterMap, visited_eq]
  exact htree.inOrder_iff

/-- A source with a named argument, a chained block, a value in pieces, and a modifier behind the
attributes. -/
def orderedSource : String :=
  "<p class=\"ä \x7b\x7bb\x7d\x7d\" id \x7b\x7bon k=(f 1 x)\x7d\x7d>é</p>" ++
    "\x7b\x7b#if a\x7d\x7dx\x7b\x7belse if c\x7d\x7d\x7b\x7bd\x7d\x7d\x7b\x7b/if\x7d\x7d"

theorem Template.visitedStarts_ascend_iff_ordered :
    ∃ t, Template.parse orderedSource "ordered.hbs" = .ok t ∧
      t.visitedStarts =
        [0, 3, 10, 13, 15, 20, 23, 23, 25, 30, 31, 35, 40, 46, 49, 52, 55, 56, 63, 66, 69, 71] ∧
      (t.visitedStarts.Pairwise (· ≤ ·) ↔
        ∀ e : Element, ⟨.element, e⟩ ∈ t.visited → e.AttributesFirst) := by
  have hstarts : (Template.parse orderedSource "ordered.hbs").toOption.map
      (fun t => t.nodes.filterMap Node.start?) = some
        [0, 3, 10, 13, 15, 20, 23, 23, 25, 30, 31, 35, 40, 46, 49, 52, 55, 56, 63, 66, 69, 71] := by
    decide +kernel
  obtain ⟨t, ht, hs⟩ := exists_of_parse hstarts
  exact ⟨t, ht, t.visitedStarts_eq.trans hs, visitedStarts_ascend_iff ht⟩

/-- A modifier in front of an attribute is visited behind it. -/
theorem Template.visitedStarts_modifierFirst :
    ∃ t, Template.parse "<p \x7b\x7bm\x7d\x7d a=\"b\"></p>" "modifier.hbs" = .ok t ∧
      t.visitedStarts = [0, 9, 12, 3, 5] ∧ ¬ t.visitedStarts.Pairwise (· ≤ ·) := by
  have hstarts : (Template.parse "<p \x7b\x7bm\x7d\x7d a=\"b\"></p>" "modifier.hbs").toOption.map
      (fun t => t.nodes.filterMap Node.start?) = some [0, 9, 12, 3, 5] := by decide +kernel
  obtain ⟨t, ht, hs⟩ := exists_of_parse hstarts
  rw [← visitedStarts_eq] at hs
  exact ⟨t, ht, hs, hs ▸ by decide⟩

end Bracework
