/-
Spans — the spans of a tree that was read are exact.

Every node comes out of a derivation, and its span runs from one end of it to
the other.  So the induction is on derivations, and carries two things down: that
the first place is one of the source, and that the span around encloses both
ends.  The places where a span does not begin at the derivation of its own node
are the heads of blocks, whose start is handed down by the mark before them; a
chained block begins at its else mark and ends where the whole chain does.
-/
import Bracework.Proofs.Reading.Progress

namespace Bracework

open Reading

/-! ## Nodes in their place -/

/-- A span encloses all that lies between two places. -/
def Encloses (outer : Option Span) (c d : Cursor) : Prop :=
  ∀ o ∈ outer, o.start ≤ c.offset ∧ d.offset ≤ o.stop

theorem Encloses.inner {outer : Option Span} {c c' d d' : Cursor} (h : Encloses outer c d)
    (hc : c.Reaches c') (hd : d'.Reaches d) : Encloses outer c' d' :=
  fun o ho => ⟨Nat.le_trans (h o ho).1 hc.offset_le, Nat.le_trans hd.offset_le (h o ho).2⟩

theorem Encloses.self (c d : Cursor) : Encloses (some (d.spanFrom c.offset)) c d := by
  intro o ho
  obtain rfl := Option.some.inj ho
  exact ⟨Nat.le_refl _, Nat.le_refl _⟩

/-- What a span covers is told by the two places it runs between. -/
theorem slice?_of_places {source text : List Char} {c d : Cursor}
    (hr : (Cursor.ofChars source).Reaches c) (h : c.Passes text d) :
    (d.spanFrom c.offset).slice? source = some text ∧ c.offset ≤ d.offset ∧
      d.offset ≤ utf8Length source ∧ isBoundary source c.offset = true ∧
      isBoundary source d.offset = true := by
  obtain ⟨before, hb, hbo⟩ := hr
  obtain ⟨ht, hto⟩ := h
  have hc : c.offset = utf8Length before := by simpa [Cursor.ofChars] using hbo
  have hd : d.offset = utf8Length (before ++ text) := by rw [hto, hc, utf8Length_append]
  have hsource : source = before ++ (text ++ d.rest) := by rw [← ht]; exact hb
  have hstart : afterBytes? source c.offset = some (text ++ d.rest) := by
    rw [hc, hsource]
    exact afterBytes?_append ..
  have hstop : afterBytes? source d.offset = some d.rest := by
    rw [hd, hsource, ← List.append_assoc]
    exact afterBytes?_append ..
  refine ⟨?_, hto ▸ Nat.le_add_right .., ?_, congrArg Option.isSome hstart,
    congrArg Option.isSome hstop⟩
  · rw [Cursor.spanFrom, hc, hd, hsource]
    exact Span.slice?_append ..
  · rw [hd, hsource, utf8Length_append, utf8Length_append, utf8Length_append]
    omega

/-- A block that is all of the inverse of another one is chained there or stands apart, in the
source that begins at a place. -/
def FollowerPlaced (root : Cursor) (b : BlockStatement) : Prop :=
  ∀ source, root = .ofChars source → ∀ inner params,
    b.inverse = some ⟨[.block inner], params⟩ → b.FollowedBy source inner

/-- A node stands where its span says, in the source that begins at a place. -/
structure Placed (root : Cursor) (outer : Option Span) (n : Node) : Prop where
  stands : ∀ s ∈ n.span?, ∃ c d text, root.Reaches c ∧ c.Passes text d ∧
    s = d.spanFrom c.offset ∧ ∀ words ∈ n.words?, n.kind = .path ∨ words ≠ [] → words = text
  within : ∀ o ∈ outer, ∀ s ∈ n.span?, o.start ≤ s.start ∧ s.stop ≤ o.stop
  tiled : ∃ start stop, Tiles start n.body stop
  followed : ∀ b : BlockStatement, n = ⟨.blockStatement, b⟩ → FollowerPlaced root b

/-- All nodes of a list stand in their places. -/
def AllPlaced (root : Cursor) (nodes : List (Option Span × Node)) : Prop :=
  ∀ p ∈ nodes, Placed root p.1 p.2

section
variable {root c d : Cursor} {outer : Option Span}

theorem Placed.of_span {n : Node} (hr : root.Reaches c) (h : c.Reaches d)
    (ho : Encloses outer c d) (hs : n.span? = some (d.spanFrom c.offset))
    (hw : ∀ words ∈ n.words?, n.kind ≠ .path ∧ words = [])
    (hb : ∃ start stop, Tiles start n.body stop)
    (hf : ∀ b : BlockStatement, n = ⟨.blockStatement, b⟩ → FollowerPlaced root b) :
    Placed root outer n where
  stands := by
    intro s hsn
    obtain ⟨text, htext⟩ := h
    refine ⟨c, d, text, hr, htext, Option.some.inj (hsn.symm.trans hs), fun words hwords hne => ?_⟩
    obtain ⟨hk, hnil⟩ := hw words hwords
    exact absurd hnil (hne.resolve_left hk)
  within := by
    intro o hon s hsn
    obtain rfl := Option.some.inj (hsn.symm.trans hs)
    exact ho o hon
  tiled := hb
  followed := hf

/-- Of a node without words and statements of its own, a block apart, all that can be wrong is its
span. -/
theorem Placed.of_wordless {k : Kind} {value : k.Node} (hr : root.Reaches c) (h : c.Reaches d)
    (ho : Encloses outer c d) (hs : k.span? value = some (d.spanFrom c.offset))
    (hw : k.words? value = none) (hb : k.body value = []) (hk : k ≠ .blockStatement) :
    Placed root outer ⟨k, value⟩ := by
  refine .of_span hr h ho hs ?_ ⟨0, 0, ?_⟩ ?_
  · intro words hwords
    cases hw.symm.trans hwords
  · rw [Node.body, hb]
    rfl
  · intro b hblock
    exact absurd (congrArg Node.kind hblock) hk

theorem Placed.of_words {n : Node} {text : List Char} (hr : root.Reaches c)
    (h : c.Passes text d) (ho : Encloses outer c d) (hs : n.span? = some (d.spanFrom c.offset))
    (hw : n.words? = some text) (hb : n.body = []) : Placed root outer n where
  stands := by
    intro s hsn
    exact ⟨c, d, text, hr, h, Option.some.inj (hsn.symm.trans hs),
      fun words hwords _ => Option.some.inj (hwords.symm.trans hw)⟩
  within := by
    intro o hon s hsn
    obtain rfl := Option.some.inj (hsn.symm.trans hs)
    exact ho o hon
  tiled := ⟨0, 0, hb ▸ rfl⟩
  followed := by
    rintro b rfl
    cases hw

theorem AllPlaced.nil : AllPlaced root [] := fun _ h => nomatch h

theorem AllPlaced.cons {n : Node} {nodes : List (Option Span × Node)} (h : Placed root outer n)
    (hs : AllPlaced root nodes) : AllPlaced root ((outer, n) :: nodes) := by
  intro p hp
  cases hp with
  | head => exact h
  | tail _ hp => exact hs p hp

theorem AllPlaced.append {as bs : List (Option Span × Node)} (ha : AllPlaced root as)
    (hb : AllPlaced root bs) : AllPlaced root (as ++ bs) :=
  fun p hp => (List.mem_append.mp hp).elim (ha p) (hb p)

end

/-! ## Expressions and calls -/

namespace Reading

mutual
theorem ReadsExpression.placed {root c d : Cursor} {e : Expression} {outer : Option Span} :
    ReadsExpression c e d → root.Reaches c → Encloses outer c d → AllPlaced root (e.nodesIn outer)
  | .sub (d := e) hc hi hcl, hr, ho => by
      have hin := (c.reaches_advance 1).trans (Cursor.reaches_skipSpace _)
      have hout := e.reaches_skipSpace.trans (Cursor.reaches_advance _ Token.subClose.length)
      have hcall := hi.placed (hr.trans hin) ((Encloses.self c _).inner hin hout)
      have hreach := (ReadsExpression.sub hc hi hcl).reaches
      exact .cons (.of_wordless hr hreach ho rfl rfl rfl (by decide)) hcall
  | .string _ _ _, _, _ => .nil
  | .numeral _ _ _, _, _ => .nil
  | .word _ _ _, hr, ho => by
      unfold Expression.ofWord
      repeat' split
      · exact .nil
      · exact .nil
      · exact .nil
      · exact .nil
      · have hwords : Node.words? ⟨.path, ⟨String.ofList (c.taken Token.isPathChar),
            (c.skip Token.isPathChar).spanFrom c.offset⟩⟩ = some (c.taken Token.isPathChar) :=
          congrArg some String.toList_ofList
        exact .cons (.of_words hr (c.passes_skip _) ho rfl hwords rfl) .nil
theorem ReadsCall.placed {root c d : Cursor} {call : Call} {outer : Option Span} :
    ReadsCall c call d → root.Reaches c → Encloses outer c d → AllPlaced root (call.nodesIn outer)
  | .call _ he ha, hr, ho => by
      have hcallee := he.placed hr (ho.inner (.refl c) ha.reaches)
      obtain ⟨hparams, hhash⟩ := ha.placed (hr.trans he.reaches) (ho.inner he.reaches (.refl d))
      exact (hcallee.append hparams).append hhash
theorem ReadsArguments.placed {root c d : Cursor} {named : Bool} {params : List Expression}
    {hash : List (String × Expression)} {outer : Option Span} :
    ReadsArguments c named params hash d → root.Reaches c → Encloses outer c d →
      AllPlaced root (paramsNodesIn params outer) ∧ AllPlaced root (hashNodesIn hash outer)
  | .done _, _, _ => ⟨.nil, .nil⟩
  | @ReadsArguments.named _ _ _ _ name _ _ _ _ _ he ha, hr, ho => by
      have hin : c.Reaches (behindName c.skipSpace name) :=
        c.reaches_skipSpace.trans ((Cursor.reaches_advance ..).trans (Cursor.reaches_skipSpace _))
      have hvalue := he.placed (hr.trans hin) (ho.inner hin ha.reaches)
      have hin' := hin.trans he.reaches
      obtain ⟨hparams, hhash⟩ := ha.placed (hr.trans hin') (ho.inner hin' (.refl d))
      exact ⟨hparams, hvalue.append hhash⟩
  | .positional _ _ he ha, hr, ho => by
      have hin := c.reaches_skipSpace
      have hvalue := he.placed (hr.trans hin) (ho.inner hin ha.reaches)
      have hin' := hin.trans he.reaches
      obtain ⟨hparams, hhash⟩ := ha.placed (hr.trans hin') (ho.inner hin' (.refl d))
      exact ⟨hvalue.append hparams, hhash⟩
end

/-! ## Mustaches and block heads -/

theorem ReadsMustache.placed {root c d : Cursor} {m : Mustache} {outer : Option Span}
    (h : ReadsMustache c m d) (hr : root.Reaches c) (ho : Encloses outer c d) :
    AllPlaced root (m.nodesIn outer) := by
  have hreach := h.reaches
  cases h with
  | @mustache e trusting _ _ _ hc _ =>
      have hin := (c.reaches_advance (Mustache.opening trusting).length).trans
        (Cursor.reaches_skipSpace _)
      have hout := e.reaches_skipSpace.trans
        (Cursor.reaches_advance _ (Mustache.closing trusting).length)
      have hcall := hc.placed (hr.trans hin) ((Encloses.self c _).inner hin hout)
      exact .cons (.of_wordless hr hreach ho rfl rfl rfl (by decide)) hcall

theorem ReadsBlockHead.placed {root c d : Cursor} {start : Nat} {head : BlockHead}
    {outer : Option Span} (h : ReadsBlockHead c start head d) (hr : root.Reaches c)
    (ho : Encloses outer c d) : AllPlaced root (head.call.nodesIn outer) := by
  cases h with
  | head hc hp =>
      exact hc.placed hr (ho.inner (.refl c) ((Cursor.reaches_skipSpace _).trans hp.reaches))

/-! ## Opening tags -/

theorem prefix_partText (quote : Char) (cs : List Char) : partText quote cs <+: cs := by
  induction cs with
  | nil => exact List.nil_prefix
  | cons c cs ih =>
      rw [partText]
      split
      · exact List.nil_prefix
      · exact List.cons_prefix_cons.mpr ⟨rfl, ih⟩

theorem frontPart_placed {root c : Cursor} (quote : Char) {outer : Option Span}
    (hr : root.Reaches c) (ho : Encloses outer c (behindText quote c)) :
    AllPlaced root ((frontPart quote c).flatMap (AttributePart.nodesIn outer)) := by
  rw [frontPart, textPart]
  split
  · exact .nil
  · have hpass : c.Passes (partText quote c.rest) (behindText quote c) :=
      Cursor.passes_advance (prefix_partText quote c.rest)
    have hwords : Node.words? ⟨.text, ⟨String.ofList (partText quote c.rest),
        (behindText quote c).spanFrom c.offset⟩⟩ = some (partText quote c.rest) :=
      congrArg some String.toList_ofList
    exact .cons (.of_words hr hpass ho rfl hwords rfl) .nil

theorem ReadsParts.placed {root c d : Cursor} {quote : Char} {pieces : List AttributePart}
    {outer : Option Span} (h : ReadsParts quote c pieces d) (hr : root.Reaches c)
    (ho : Encloses outer c d) :
    AllPlaced root (pieces.flatMap (AttributePart.nodesIn outer)) := by
  induction h with
  | close _ => exact frontPart_placed quote hr (ho.inner (.refl _) (Cursor.reaches_advance ..))
  | @mustache c d e first others m pieces _ _ hm hp ih =>
      have hin : c.Reaches (behindText quote c) := Cursor.reaches_advance ..
      have hfront := frontPart_placed quote hr
        (ho.inner (.refl c) (hm.reaches.trans hp.reaches))
      have hmustache := hm.placed (hr.trans hin) (ho.inner hin hp.reaches)
      have hin' := hin.trans hm.reaches
      rw [List.flatMap_append, List.flatMap_cons]
      exact hfront.append (hmustache.append (ih (hr.trans hin') (ho.inner hin' (.refl e))))

theorem valueOfParts_placed {root c d : Cursor} {pieces : List AttributePart}
    {outer : Option Span} (hr : root.Reaches c) (h : c.Reaches d) (ho : Encloses outer c d)
    (hp : AllPlaced root (pieces.flatMap (AttributePart.nodesIn outer))) :
    AllPlaced root ((valueOfParts (d.spanFrom c.offset) pieces).nodesIn outer) := by
  unfold valueOfParts
  split
  · have hwords : ∀ words ∈ Node.words? ⟨.text, ⟨"", d.spanFrom c.offset⟩⟩,
        Kind.text ≠ .path ∧ words = [] := by
      intro words hw
      exact ⟨by decide, (Option.some.inj hw).symm⟩
    exact .cons (.of_span hr h ho rfl hwords ⟨0, 0, rfl⟩ fun _ h => nomatch h) .nil
  · simpa [AttributeValue.nodesIn, AttributePart.nodesIn] using hp
  · exact hp

theorem ReadsValue.placed {root c d : Cursor} {v : AttributeValue} {outer : Option Span}
    (h : ReadsValue c v d) (hr : root.Reaches c) (ho : Encloses outer c d) :
    AllPlaced root (v.nodesIn outer) := by
  have hreach := h.reaches
  cases h with
  | mustache _ hm => exact hm.placed hr ho
  | quoted _ _ _ hp =>
      have hin := c.reaches_advance 1
      exact valueOfParts_placed hr hreach ho (hp.placed (hr.trans hin) (ho.inner hin (.refl d)))
  | bare _ _ =>
      have hwords : Node.words? ⟨.text, ⟨String.ofList (c.taken fun x => !Token.endsBareValue x),
          (c.skip fun x => !Token.endsBareValue x).spanFrom c.offset⟩⟩ =
            some (c.taken fun x => !Token.endsBareValue x) := congrArg some String.toList_ofList
      exact .cons (.of_words hr (c.passes_skip _) ho rfl hwords rfl) .nil

theorem ReadsAttributeTail.placed {root c d : Cursor} {v : AttributeValue} {outer : Option Span}
    (h : ReadsAttributeTail c v d) (hr : root.Reaches c) (ho : Encloses outer c d) :
    AllPlaced root (v.nodesIn outer) := by
  cases h with
  | value _ hv =>
      have hin := (c.reaches_advance 1).trans (Cursor.reaches_skipSpace _)
      exact hv.placed (hr.trans hin) (ho.inner hin (.refl d))
  | empty _ => exact .cons (.of_words hr ⟨rfl, rfl⟩ ho rfl rfl rfl) .nil

theorem ReadsAttribute.placed {root c d : Cursor} {a : Attribute} {outer : Option Span}
    (h : ReadsAttribute c a d) (hr : root.Reaches c) (ho : Encloses outer c d) :
    AllPlaced root (a.nodesIn outer) := by
  have hreach := h.reaches
  cases h with
  | attr _ ht =>
      have hin := reaches_behindAttributeName c
      have hvalue := ht.placed (hr.trans hin) ((Encloses.self c d).inner hin (.refl d))
      exact .cons (.of_wordless hr hreach ho rfl rfl rfl (by decide)) hvalue

theorem ReadsTagBody.placed {root c d : Cursor} {attributes : List Attribute}
    {modifiers : List Mustache} {selfClosing : Bool} {outer : Option Span}
    (h : ReadsTagBody c attributes modifiers selfClosing d) (hr : root.Reaches c)
    (ho : Encloses outer c d) :
    AllPlaced root (attributes.flatMap (Attribute.nodesIn outer)) ∧
      AllPlaced root (modifiers.flatMap (Mustache.nodesIn · outer)) := by
  induction h with
  | selfClose _ => exact ⟨.nil, .nil⟩
  | close _ => exact ⟨.nil, .nil⟩
  | @modifier c d e _ _ _ _ _ hm hb ih =>
      have hin := c.reaches_skipSpace
      have hmustache := hm.placed (hr.trans hin) (ho.inner hin hb.reaches)
      have hin' := hin.trans hm.reaches
      obtain ⟨hattributes, hmodifiers⟩ := ih (hr.trans hin') (ho.inner hin' (.refl e))
      exact ⟨hattributes, hmustache.append hmodifiers⟩
  | @attr c d e _ _ _ _ _ _ _ ha hb ih =>
      have hin := c.reaches_skipSpace
      have hattribute := ha.placed (hr.trans hin) (ho.inner hin hb.reaches)
      have hin' := hin.trans ha.reaches
      obtain ⟨hattributes, hmodifiers⟩ := ih (hr.trans hin') (ho.inner hin' (.refl e))
      exact ⟨hattribute.append hattributes, hmodifiers⟩

theorem ReadsOpeningTag.placed {root c d : Cursor} {tag : OpeningTag} {outer : Option Span}
    (h : ReadsOpeningTag c tag d) (hr : root.Reaches c) (ho : Encloses outer c d) :
    AllPlaced root (tag.attributes.flatMap (Attribute.nodesIn outer)) ∧
      AllPlaced root (tag.modifiers.flatMap (Mustache.nodesIn · outer)) := by
  cases h with
  | tag _ hb =>
      have hin := (c.reaches_advance Token.tagOpen.length).trans
        (Cursor.reaches_skip _ Token.isTagChar)
      exact hb.placed (hr.trans hin) (ho.inner hin (.refl d))

/-! ## Items -/

theorem prefix_textTail (cs : List Char) : textTail cs <+: cs := by
  induction cs with
  | nil => exact List.nil_prefix
  | cons c cs ih =>
      rw [textTail]
      split
      · exact List.nil_prefix
      · exact List.cons_prefix_cons.mpr ⟨rfl, ih⟩

theorem ReadsComment.span_eq {html : Bool} {opening closing : List Char} {c d : Cursor}
    {comment : Comment} (h : ReadsComment html opening closing c comment d) :
    comment.span = d.spanFrom c.offset := by
  cases h
  rfl

theorem ReadsItem.comment_placed {root c d : Cursor} {html : Bool} {opening closing : List Char}
    {comment : Comment} {outer : Option Span}
    (h : ReadsComment html opening closing c comment d) (hr : root.Reaches c)
    (ho : Encloses outer c d) :
    comment.span = d.spanFrom c.offset ∧ AllPlaced root [(outer, ⟨.comment, comment⟩)] := by
  have hs := h.span_eq
  exact ⟨hs, .cons (.of_wordless hr h.reaches ho (congrArg some hs) rfl rfl (by decide)) .nil⟩

/-- A complete statement stands between the two places of its item. -/
theorem ReadsItem.leaf_placed {root c d : Cursor} {s : Statement} {outer : Option Span}
    (h : ReadsItem c (.leaf s) d) (hr : root.Reaches c) (ho : Encloses outer c d) :
    s.span = d.spanFrom c.offset ∧ AllPlaced root (s.nodesIn outer) := by
  cases h with
  | longRemark _ hc => exact comment_placed hc hr ho
  | remark _ hc => exact comment_placed hc hr ho
  | comment _ hc => exact comment_placed hc hr ho
  | mustache _ hm =>
      refine ⟨?_, hm.placed hr ho⟩
      cases hm
      rfl
  | @text first others _ hc =>
      have hpass : c.Passes (first :: textTail others)
          (c.advance (first :: textTail others).length) := by
        refine Cursor.passes_advance ?_
        rw [hc]
        exact List.cons_prefix_cons.mpr ⟨rfl, prefix_textTail others⟩
      have hwords : Node.words? ⟨.text, ⟨String.ofList (first :: textTail others),
          (c.advance (first :: textTail others).length).spanFrom c.offset⟩⟩ =
            some (first :: textTail others) := congrArg some String.toList_ofList
      exact ⟨rfl, .cons (.of_words hr hpass ho rfl hwords rfl) .nil⟩

theorem ReadsItem.openTag_span {c d : Cursor} {tag : OpeningTag}
    (h : ReadsItem c (.openTag tag) d) : tag.span = d.spanFrom c.offset := by
  cases h with
  | openingTag _ ht =>
      cases ht
      rfl

theorem ReadsItem.openTag_placed {root c d : Cursor} {tag : OpeningTag} {outer : Option Span}
    (h : ReadsItem c (.openTag tag) d) (hr : root.Reaches c) (ho : Encloses outer c d) :
    AllPlaced root (tag.attributes.flatMap (Attribute.nodesIn outer)) ∧
      AllPlaced root (tag.modifiers.flatMap (Mustache.nodesIn · outer)) := by
  cases h with
  | openingTag _ ht => exact ht.placed hr ho

theorem ReadsItem.closeTag_span {c d : Cursor} {name : String} {span : Span}
    (h : ReadsItem c (.closeTag name span) d) : span = d.spanFrom c.offset := by
  cases h
  rfl

theorem ReadsItem.closeBlock_span {c d : Cursor} {name : String} {span : Span}
    (h : ReadsItem c (.closeBlock name span) d) : span = d.spanFrom c.offset := by
  cases h
  rfl

/-- The head of a block starts where the mark in front of it does. -/
theorem ReadsItem.openBlock_start {c d : Cursor} {head : BlockHead}
    (h : ReadsItem c (.openBlock head) d) : head.start = c.offset := by
  cases h with
  | openingBlock _ hh _ =>
      cases hh
      rfl

theorem ReadsItem.chainedElse_start {c d : Cursor} {head : BlockHead} {mark : Span}
    (h : ReadsItem c (.elseMark (some head) mark) d) : head.start = c.offset := by
  cases h with
  | chainedElse _ _ hh _ =>
      cases hh
      rfl

/-- The mark that a block opens with, and the rest of its head. -/
theorem ReadsItem.openBlock_passes {c d : Cursor} {head : BlockHead}
    (h : ReadsItem c (.openBlock head) d) : ∃ content, c.Passes (Token.blockOpen ++ content) d := by
  cases h with
  | openingBlock hm hh hc =>
      obtain ⟨content, hcontent⟩ :=
        (Cursor.reaches_skipSpace _).trans (hh.reaches.trans (Cursor.reaches_advance ..))
      exact ⟨content, (Cursor.passes_of_startsWith (Mark.fits_of_eq hm)).append hcontent⟩

theorem Cursor.isBlank_taken (c : Cursor) : IsBlank (c.taken CharClass.isSpace) :=
  fun _ hx => List.mem_takeWhile_imp hx

/-- An else mark that begins no chained block closes behind blanks. -/
theorem ReadsItem.bareElse_passes {c d : Cursor} {mark : Span}
    (h : ReadsItem c (.elseMark none mark) d) : ∃ blanks, IsBlank blanks ∧
      c.Passes (Token.elseOpen ++ blanks ++ Token.mustacheClose) d := by
  cases h with
  | bareElse hm hclose =>
      have hopen := Cursor.passes_of_startsWith (Bool.and_eq_true_iff.mp (Mark.fits_of_eq hm)).1
      exact ⟨_, Cursor.isBlank_taken _,
        (hopen.append (Cursor.passes_skip ..)).append (Cursor.passes_of_startsWith hclose)⟩

/-- If a mark does not stand behind the blanks at a place, no text that stands there has it behind
its blanks. -/
theorem not_prefix_of_passes {c d : Cursor} {text token : List Char} (h : c.Passes text d)
    (htoken : token ≠ []) (hnone : c.skipSpace.startsWith token = false) :
    ¬ token <+: text.dropWhile CharClass.isSpace := by
  intro hprefix
  have hne : text.dropWhile CharClass.isSpace ≠ [] :=
    fun hnil => htoken (List.prefix_nil.mp (hnil ▸ hprefix))
  have hrest : c.skipSpace.rest = text.dropWhile CharClass.isSpace ++ d.rest := by
    show c.rest.dropWhile CharClass.isSpace = _
    rw [h.1, List.dropWhile_append, if_neg (by rwa [List.isEmpty_iff])]
  have hsome : c.skipSpace.startsWith token = true := by
    rw [Cursor.startsWith_iff, hrest]
    exact hprefix.trans (List.prefix_append _ _)
  exact Bool.false_ne_true (hnone.symm.trans hsome)

/-- The mark that a chained block begins with.  What stands behind it is no closing delimiter,
however far one reads on. -/
theorem ReadsItem.chainedElse_passes {c d e : Cursor} {head : BlockHead} {mark : Span}
    (h : ReadsItem c (.elseMark (some head) mark) d) (he : d.Reaches e) :
    ∃ content, c.Passes (Token.elseOpen ++ content) e ∧
      ¬ Token.mustacheClose <+: content.dropWhile CharClass.isSpace := by
  cases h with
  | chainedElse hm hd hh hc =>
      have hopen := Cursor.passes_of_startsWith (Bool.and_eq_true_iff.mp (Mark.fits_of_eq hm)).1
      obtain ⟨content, hcontent⟩ := (Cursor.reaches_skipSpace _).trans
        (hh.reaches.trans ((Cursor.reaches_advance ..).trans he))
      exact ⟨content, hopen.append hcontent,
        not_prefix_of_passes hcontent Token.mustacheClose_ne_nil hd⟩

theorem ReadsItem.openBlock_placed {root c d : Cursor} {head : BlockHead} {outer : Option Span}
    (h : ReadsItem c (.openBlock head) d) (hr : root.Reaches c) (ho : Encloses outer c d) :
    AllPlaced root (head.call.nodesIn outer) := by
  cases h with
  | openingBlock _ hh _ =>
      have hin := (c.reaches_advance Token.blockOpen.length).trans (Cursor.reaches_skipSpace _)
      exact hh.placed (hr.trans hin) (ho.inner hin (Cursor.reaches_advance ..))

theorem ReadsItem.chainedElse_placed {root c d : Cursor} {head : BlockHead} {mark : Span}
    {outer : Option Span} (h : ReadsItem c (.elseMark (some head) mark) d)
    (hr : root.Reaches c) (ho : Encloses outer c d) :
    AllPlaced root (head.call.nodesIn outer) := by
  cases h with
  | chainedElse _ _ hh _ =>
      have hin : c.Reaches (behindElse c) :=
        (c.reaches_advance _).trans (Cursor.reaches_skipSpace _)
      exact hh.placed (hr.trans hin) (ho.inner hin (Cursor.reaches_advance ..))

end Reading

/-! ## Statements -/

theorem Tiles.cons {c d : Cursor} {s : Statement} {ss : List Statement} {stop : Nat}
    (h : s.span = d.spanFrom c.offset) (hs : Tiles d.offset ss stop) :
    Tiles c.offset (s :: ss) stop :=
  ⟨congrArg Span.start h, h ▸ hs⟩

/-- The nodes of an element are in their places if those of its tag and its content are. -/
theorem element_placed (children : List Statement) {root c d : Cursor} {outer : Option Span}
    {tag : OpeningTag} {stop : Nat} (hr : root.Reaches c) (h : c.Reaches d)
    (ho : Encloses outer c d) (hstart : tag.span.start = c.offset) (hstop : stop = d.offset)
    (hattributes : AllPlaced root
      (tag.attributes.flatMap (Attribute.nodesIn (some (d.spanFrom c.offset)))))
    (hmodifiers : AllPlaced root
      (tag.modifiers.flatMap (Mustache.nodesIn · (some (d.spanFrom c.offset)))))
    (hchildren : AllPlaced root (statementsNodesIn children (some (d.spanFrom c.offset))))
    (htiles : ∃ start stop, Tiles start children stop) :
    (tag.close children stop).span = d.spanFrom c.offset ∧
      AllPlaced root ((tag.close children stop).nodesIn outer) := by
  have hspan : (tag.close children stop).span = d.spanFrom c.offset := by
    rw [OpeningTag.close, hstart, hstop]
    rfl
  refine ⟨hspan, .cons (.of_span hr h ho (congrArg some hspan) ?_ htiles ?_) ?_⟩
  · intro words hw
    cases hw
  · intro b hb
    cases hb
  · rw [← hspan] at hattributes hmodifiers hchildren
    exact (hattributes.append hmodifiers).append hchildren

/-- A block has no span; its statements follow each other. -/
theorem body_placed {root : Cursor} {outer : Option Span} {body : List Statement}
    {params : List String} (h : ∃ start stop, Tiles start body stop) :
    Placed root outer ⟨.block, ⟨body, params⟩⟩ where
  stands := fun _ hs => nomatch hs
  within := fun _ _ _ hs => nomatch hs
  tiled := h
  followed := fun _ h => nomatch h

/-- The nodes of a block are in their places if those of its call, its program and its
inverse are, and what may follow the program is. -/
theorem block_placed {root c d : Cursor} {outer : Option Span} {head : BlockHead}
    {program : List Statement} {inverse : Option Block} {stop : Nat} (hr : root.Reaches c)
    (h : c.Reaches d) (ho : Encloses outer c d) (hstart : head.start = c.offset)
    (hstop : stop = d.offset)
    (hcall : AllPlaced root (head.call.nodesIn (some (d.spanFrom c.offset))))
    (hprogram : AllPlaced root (statementsNodesIn program (some (d.spanFrom c.offset))))
    (htiles : ∃ start stop, Tiles start program stop)
    (hinverse : AllPlaced root (inverseNodesIn inverse (some (d.spanFrom c.offset))))
    (hfollower : FollowerPlaced root (head.close program inverse stop)) :
    (head.close program inverse stop).span = d.spanFrom c.offset ∧
      AllPlaced root ((head.close program inverse stop).nodesIn outer) := by
  have hspan : (head.close program inverse stop).span = d.spanFrom c.offset := by
    rw [BlockHead.close, hstart, hstop]
    rfl
  refine ⟨hspan, .cons (.of_span hr h ho (congrArg some hspan) (fun _ h => nomatch h)
    ⟨0, 0, rfl⟩ fun b hb => ?_) ?_⟩
  · cases hb
    exact hfollower
  rw [← hspan] at hcall hprogram hinverse
  exact (hcall.append (.cons (body_placed htiles) hprogram)).append hinverse

/-- A chained block is in its place: it begins where the program ends and ends with the chain. -/
theorem followerPlaced_chained {root c d e : Cursor} {head next : BlockHead} {mark : Span}
    {program : List Statement} {inner : BlockStatement} {start : Nat} (hr : root.Reaches c)
    (htiles : Tiles start program c.offset) (he : ReadsItem c (.elseMark (some next) mark) d)
    (hd : d.Reaches e) (hspan : inner.span = e.spanFrom c.offset) :
    FollowerPlaced root (head.close program (some ⟨[.block inner], []⟩) inner.span.stop) := by
  rintro source rfl inner' params hinverse
  cases hinverse
  obtain ⟨content, hpass, hopen⟩ := he.chainedElse_passes hd
  have hstart : inner.span.start = c.offset := congrArg Span.start hspan
  exact .chained (hstart ▸ htiles) (hspan ▸ (slice?_of_places hr hpass).1) hopen rfl

/-- A block of its own is in its place: it stands between a bare else mark and the mark that closes
the block around it. -/
theorem followerPlaced_apart {root m c d e : Cursor} {head : BlockHead} {name : String}
    {program inverse : List Statement} {mark span : Span} {start : Nat} (hr : root.Reaches m)
    (htiles : Tiles start program m.offset) (he : ReadsItem m (.elseMark none mark) c)
    (hv : ReadsStatements c inverse d) (htiles' : Tiles c.offset inverse d.offset)
    (hcl : ReadsItem d (.closeBlock name span) e) :
    FollowerPlaced root (head.close program (some ⟨inverse, []⟩) span.stop) := by
  rintro source rfl inner params hinverse
  cases hinverse
  obtain ⟨hstart, hstop⟩ := htiles'
  have hspan : inner.span = d.spanFrom c.offset := by
    show inner.span = ⟨c.offset, d.offset⟩
    rw [← hstart, ← hstop]
    rfl
  obtain ⟨blanks, hblank, hmark⟩ := he.bareElse_passes
  cases hv with
  | leaf hi hs => cases hi
  | block hi hb hs =>
      cases hs
      obtain ⟨content, hopen⟩ := hi.openBlock_passes
      obtain ⟨text, htext⟩ := hb.reaches
      have hpass := List.append_assoc .. ▸ hopen.append htext
      refine .apart htiles ?_ hblank (hspan ▸ (slice?_of_places (hr.trans he.reaches) hpass).1) ?_
      · rw [hspan]
        exact (slice?_of_places hr hmark).1
      · rw [hspan, BlockHead.close, hcl.closeBlock_span]
        exact hcl.precedes.offset_lt

mutual
theorem ReadsStatements.placed {root c d : Cursor} {ss : List Statement} {outer : Option Span} :
    ReadsStatements c ss d → root.Reaches c → Encloses outer c d →
      Tiles c.offset ss d.offset ∧ AllPlaced root (statementsNodesIn ss outer)
  | .nil, _, _ => ⟨rfl, .nil⟩
  | .leaf hi hs, hr, ho => by
      obtain ⟨hspan, hnode⟩ := hi.leaf_placed hr (ho.inner (.refl c) hs.reaches)
      obtain ⟨htiles, hnodes⟩ := hs.placed (hr.trans hi.reaches) (ho.inner hi.reaches (.refl d))
      exact ⟨.cons hspan htiles, hnode.append hnodes⟩
  | .whole (d := e) hi hw hs, hr, ho => by
      have hspan := hi.openTag_span
      obtain ⟨hattributes, hmodifiers⟩ := hi.openTag_placed hr (.self c e)
      obtain ⟨htiles, hnodes⟩ := hs.placed (hr.trans hi.reaches) (ho.inner hi.reaches (.refl d))
      obtain ⟨hclose, hnode⟩ := element_placed [] hr hi.reaches
        (ho.inner (.refl c) hs.reaches) (congrArg Span.start hspan) (congrArg Span.stop hspan)
        hattributes hmodifiers .nil ⟨0, 0, rfl⟩
      exact ⟨.cons hclose htiles, hnode.append hnodes⟩
  | .element (d := e) hi hw hc hcl hs, hr, ho => by
      have hbehind := hc.reaches.trans hcl.reaches
      have hreach := hi.reaches.trans hbehind
      have hspan := hi.openTag_span
      obtain ⟨hattributes, hmodifiers⟩ :=
        hi.openTag_placed hr ((Encloses.self c e).inner (.refl c) hbehind)
      obtain ⟨hinner, hchildren⟩ := hc.placed (hr.trans hi.reaches)
        ((Encloses.self c e).inner hi.reaches hcl.reaches)
      obtain ⟨htiles, hnodes⟩ := hs.placed (hr.trans hreach) (ho.inner hreach (.refl d))
      obtain ⟨hclose, hnode⟩ := element_placed _ hr hreach (ho.inner (.refl c) hs.reaches)
        (congrArg Span.start hspan) (congrArg Span.stop hcl.closeTag_span) hattributes hmodifiers
        hchildren ⟨_, _, hinner⟩
      exact ⟨.cons hclose htiles, hnode.append hnodes⟩
  | .block (d := e) hi hb hs, hr, ho => by
      have hreach := hi.reaches.trans hb.reaches
      have hstart := hi.openBlock_start
      have hcall :=
        hi.openBlock_placed hr ((Encloses.self c e).inner (.refl c) hb.reaches)
      obtain ⟨hspan, hnode⟩ := hb.placed hr hi.reaches hstart hcall (ho.inner (.refl c) hs.reaches)
      obtain ⟨htiles, hnodes⟩ := hs.placed (hr.trans hreach) (ho.inner hreach (.refl d))
      exact ⟨.cons hspan htiles, hnode.append hnodes⟩
theorem ReadsBlock.placed {root s c d : Cursor} {name : String} {head : BlockHead}
    {b : BlockStatement} {outer : Option Span} :
    ReadsBlock name head c b d → root.Reaches s → s.Reaches c → head.start = s.offset →
      AllPlaced root (head.call.nodesIn (some (d.spanFrom s.offset))) → Encloses outer s d →
      b.span = d.spanFrom s.offset ∧ AllPlaced root (b.nodesIn outer)
  | .close hp hcl, hr, hs, hstart, hcall, ho => by
      have hreach := hs.trans (hp.reaches.trans hcl.reaches)
      obtain ⟨htiles, hprogram⟩ :=
        hp.placed (hr.trans hs) ((Encloses.self s d).inner hs hcl.reaches)
      exact block_placed hr hreach ho hstart (congrArg Span.stop hcl.closeBlock_span) hcall
        hprogram ⟨_, _, htiles⟩ .nil fun _ _ _ _ h => nomatch h
  | .inverse hp he hv hcl, hr, hs, hstart, hcall, ho => by
      have hbehind := he.reaches.trans (hv.reaches.trans hcl.reaches)
      have hreach := hs.trans (hp.reaches.trans hbehind)
      have hmark := hs.trans (hp.reaches.trans he.reaches)
      obtain ⟨htiles, hprogram⟩ := hp.placed (hr.trans hs) ((Encloses.self s d).inner hs hbehind)
      obtain ⟨htiles', hinverse⟩ :=
        hv.placed (hr.trans hmark) ((Encloses.self s d).inner hmark hcl.reaches)
      exact block_placed hr hreach ho hstart (congrArg Span.stop hcl.closeBlock_span) hcall
        hprogram ⟨_, _, htiles⟩ (.cons (body_placed ⟨_, _, htiles'⟩) hinverse)
        (followerPlaced_apart (hr.trans (hs.trans hp.reaches)) htiles he hv htiles' hcl)
  | .chain (d := m) (b := x) hp he hb, hr, hs, hstart, hcall, ho => by
      have hbehind := he.reaches.trans hb.reaches
      have hmark := hs.trans hp.reaches
      have hreach := hmark.trans hbehind
      obtain ⟨htiles, hprogram⟩ := hp.placed (hr.trans hs) ((Encloses.self s d).inner hs hbehind)
      have hstart' := he.chainedElse_start
      have hcall' := he.chainedElse_placed (hr.trans hmark)
        ((Encloses.self m d).inner (.refl m) hb.reaches)
      obtain ⟨hspan, hnode⟩ := hb.placed (hr.trans hmark) he.reaches hstart' hcall'
        ((Encloses.self s d).inner hmark (.refl d))
      have hbody : Tiles m.offset [.block x] d.offset := .cons hspan rfl
      exact block_placed hr hreach ho hstart (congrArg Span.stop hspan) hcall hprogram
        ⟨_, _, htiles⟩ (.cons (body_placed ⟨_, _, hbody⟩) (hnode.append .nil))
        (followerPlaced_chained (hr.trans hmark) htiles he hb.reaches hspan)
end

/-! ## Templates -/

/-- The spans of a tree are exact if all its nodes stand in their places. -/
theorem Template.spansExact_of_placed {source : List Char} {t : Template}
    (hc : Tiles 0 t.body (utf8Length source))
    (h : AllPlaced (Cursor.ofChars source) t.nodesIn) : t.SpansExact source := by
  have hnode : ∀ n ∈ t.nodes, ∃ outer, Placed (Cursor.ofChars source) outer n := by
    intro n hn
    rw [← t.map_nodesIn] at hn
    obtain ⟨p, hp, rfl⟩ := List.mem_map.mp hn
    exact ⟨p.1, h p hp⟩
  constructor
  case inside =>
    intro n hn s hs
    obtain ⟨outer, hplaced⟩ := hnode n hn
    obtain ⟨c, d, text, hr, htext, rfl, -⟩ := hplaced.stands s hs
    exact (slice?_of_places hr htext).2
  case nested => exact fun p hp => (h p hp).within
  case covered => exact hc
  case tiled =>
    intro n hn
    obtain ⟨outer, hplaced⟩ := hnode n hn
    exact hplaced.tiled
  case followed =>
    intro b hb
    obtain ⟨outer, hplaced⟩ := hnode _ hb
    exact hplaced.followed b rfl source rfl
  case sliced =>
    intro n hn words hwords hk s hs
    obtain ⟨outer, hplaced⟩ := hnode n hn
    obtain ⟨c, d, text, hr, htext, rfl, hsame⟩ := hplaced.stands s hs
    rw [hsame words hwords hk]
    exact (slice?_of_places hr htext).1

/-- A tree that was read has exact spans. -/
theorem Template.spansExact_of_parse {source filename : String} {t : Template}
    (h : Template.parse source filename = .ok t) : t.SpansExact source.toList := by
  have hread : Template.ofChars source.toList = .ok t := by
    unfold parse at h
    split at h
    next hread => rwa [← Except.ok.inj h]
    next => cases h
  obtain ⟨-, d, hbody, hd⟩ := ofChars_eq_ok_iff.mp hread
  have hplaced : _ ∧ AllPlaced (Cursor.ofChars source.toList) (statementsNodesIn t.body none) :=
    hbody.placed (.refl _) (fun _ h => nomatch h)
  obtain ⟨htiles, hnodes⟩ := hplaced
  have hend : d.offset = utf8Length source.toList := by
    obtain ⟨text, htext, hoff⟩ := hbody.reaches
    rw [hd, List.append_nil] at htext
    rw [hoff, ← htext]
    exact Nat.zero_add _
  rw [hend] at htiles
  have htemplate : Placed (Cursor.ofChars source.toList) none ⟨.template, t⟩ :=
    ⟨fun _ hs => (nomatch hs), fun _ ho => (nomatch ho), ⟨_, _, htiles⟩, fun _ h => nomatch h⟩
  exact spansExact_of_placed htiles (.cons htemplate hnodes)

/-- A source with a chained block, a quoted value in pieces and letters of two bytes. -/
def chainSource : String :=
  "<p class=\"ä \x7b\x7bb\x7d\x7d\">é</p>\x7b\x7b#if (eq @a.b 1)\x7d\x7dx" ++
    "\x7b\x7belse if c as |d|\x7d\x7dö\x7b\x7bd\x7d\x7d\x7b\x7b/if\x7d\x7d"

theorem Template.spansExact_chain :
    ∃ t, Template.parse chainSource "chain.hbs" = .ok t ∧ t.SpansExact chainSource.toList := by
  have hok : (Template.parse chainSource "chain.hbs").isOk = true := by decide +kernel
  cases h : Template.parse chainSource "chain.hbs" with
  | error e =>
      rw [h] at hok
      exact Bool.noConfusion hok
  | ok t => exact ⟨t, rfl, spansExact_of_parse h⟩

end Bracework
