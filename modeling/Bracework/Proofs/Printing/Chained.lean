/-
Printing — inverses in chained form.

An inverse that is one block can be written in the else mark itself: the mark
takes the call of the block, and the block goes without a closing mark of its
own.  `WritesStatements` leaves the form of every such inverse open, so a
chain may be of any length, stop at a bare else mark or at none, and stand
wherever a block does; what the printer writes is one of the texts of a tree.
Every one of them reads back as the tree.

The induction follows the text.  The only things that a list of statements has
to know about what is behind it are whether a text may end there and whether a
brace comes next: `ClosesList`.  Everything else that the reader looks ahead for
was settled where the single pieces were read back.  A chained block is closed
by the name of the block that the chain began with, so what is behind a program
is read back for any name.
-/
import Bracework.Proofs.Printing.Item

namespace Bracework

open Reading

/-! ## The texts of a tree -/

mutual
/-- A text writes a statement. -/
inductive WritesStatement : Statement → List Char → Prop
  | element {e : Element} {text : List Char} :
      WritesElement e text → WritesStatement (.element e) text
  | text {t : Text} : WritesStatement (.text t) t.chars.toList
  | mustache {m : Mustache} : WritesStatement (.mustache m) m.source
  | block {b : BlockStatement} {text : List Char} :
      WritesBlock b text → WritesStatement (.block b) text
  | comment {c : Comment} : WritesStatement (.comment c) c.source
/-- A text writes an element. -/
inductive WritesElement : Element → List Char → Prop
  | element {tag : String} {attributes : List Attribute} {modifiers : List Mustache}
      {children : List Statement} {selfClosing : Bool} {span : Span} {text : List Char} :
      WritesStatements children text →
      WritesElement ⟨tag, attributes, modifiers, children, selfClosing, span⟩
        (openingSource tag attributes modifiers ++
          if selfClosing then ' ' :: Token.selfClose
          else if Element.voidTags.contains tag then Token.tagClose
          else Token.tagClose ++ text ++ Token.closingTagOpen ++ tag.toList ++ Token.tagClose)
/-- A text writes a block statement. -/
inductive WritesBlock : BlockStatement → List Char → Prop
  | block {call : Call} {body : List Statement} {params : List String} {inverse : Option Block}
      {span : Span} {text otherwise : List Char} :
      WritesStatements body text → WritesInverse inverse otherwise →
      WritesBlock ⟨call, ⟨body, params⟩, inverse, span⟩
        (Token.blockOpen ++ call.source ++ blockParamsSource params ++ Token.mustacheClose ++
          text ++ otherwise ++
          Token.blockClose ++ (call.calleeText?.getD "").toList ++ Token.mustacheClose)
/-- A text writes an inverse, from its else mark up to the closing mark of the block. -/
inductive WritesInverse : Option Block → List Char → Prop
  | none : WritesInverse none []
  | bare {body : List Statement} {params : List String} {text : List Char} :
      WritesStatements body text →
      WritesInverse (some ⟨body, params⟩)
        (Token.elseOpen ++ blockParamsSource params ++ Token.mustacheClose ++ text)
  | chained {call : Call} {body : List Statement} {params : List String}
      {inverse : Option Block} {span : Span} {text otherwise : List Char} :
      WritesStatements body text → WritesInverse inverse otherwise →
      WritesInverse (some ⟨[.block ⟨call, ⟨body, params⟩, inverse, span⟩], []⟩)
        (Token.elseOpen ++ [' '] ++ call.source ++ blockParamsSource params ++
          Token.mustacheClose ++ text ++ otherwise)
/-- A text writes statements in a row. -/
inductive WritesStatements : List Statement → List Char → Prop
  | nil : WritesStatements [] []
  | cons {s : Statement} {ss : List Statement} {text texts : List Char} :
      WritesStatement s text → WritesStatements ss texts →
      WritesStatements (s :: ss) (text ++ texts)
end

/-- A text writes a template. -/
def Template.WrittenAs (t : Template) (text : String) : Prop :=
  WritesStatements t.body text.toList

mutual
theorem Statement.writes_source : (s : Statement) → WritesStatement s s.source
  | .element e => .element e.writes_source
  | .text _ => .text
  | .mustache _ => .mustache
  | .block b => .block b.writes_source
  | .comment _ => .comment
theorem Element.writes_source : (e : Element) → WritesElement e e.source
  | ⟨_, _, _, children, _, _⟩ => .element (writes_statementsSource children)
theorem BlockStatement.writes_source : (b : BlockStatement) → WritesBlock b b.source
  | ⟨_, ⟨body, _⟩, inverse, _⟩ =>
      .block (writes_statementsSource body) (writes_inverseSource inverse)
theorem writes_inverseSource : (inverse : Option Block) →
    WritesInverse inverse (inverseSource inverse)
  | none => .none
  | some ⟨body, _⟩ => .bare (writes_statementsSource body)
theorem writes_statementsSource : (ss : List Statement) → WritesStatements ss (statementsSource ss)
  | [] => .nil
  | s :: ss => .cons s.writes_source (writes_statementsSource ss)
end

/-- What is printed is a text of the template. -/
theorem Template.writtenAs_print (t : Template) : t.WrittenAs t.print := by
  rw [WrittenAs, print, String.toList_ofList]
  exact writes_statementsSource t.body

/-! ## Neighbours -/

/-- What closes a list of statements, beginning with a brace or not. -/
def ClosesList (braceCloses : Bool) (r : List Char) : Prop :=
  StopsText r ∧ (braceCloses = false → r.head? ≠ some '{')

/-- What a statement needs to stand in front of a text. -/
def Statement.Meets : Statement → List Char → Prop
  | .text t, r => t.Meets r
  | _, _ => True

theorem WritesElement.head {e : Element} {text : List Char} (hw : WritesElement e text)
    (h : e.isPrintable = true) : ∃ x xs, text = '<' :: x :: xs ∧ x.isAlpha = true := by
  cases hw with
  | element _ =>
      simp only [Element.isPrintable, Bool.and_eq_true] at h
      obtain ⟨x, xs, hx, halpha, -⟩ := isPrintableTag_iff.mp h.1.1.1.1
      rw [openingSource, hx]
      exact ⟨x, _, rfl, halpha⟩

/-- A statement that is no text begins with a mark, and shows in its kind whether that is a
brace. -/
theorem WritesStatement.startsMark {s : Statement} {text : List Char}
    (hw : WritesStatement s text) (h : s.isPrintable = true) (ht : ∀ t, s ≠ .text t)
    (r : List Char) :
    Token.startsMark (text ++ r) = true ∧
      (s.startsWithBrace = false → (text ++ r).head? ≠ some '{') := by
  cases hw with
  | @element e text hw =>
      obtain ⟨x, xs, rfl, halpha⟩ := hw.head h
      exact ⟨by simp [Token.startsMark, Token.startsTag, halpha], fun _ => by simp⟩
  | @text t => exact absurd rfl (ht t)
  | mustache =>
      constructor
      · rw [Token.startsMark, Mustache.mustacheOpen_source]
        rfl
      · intro hb
        cases hb
  | block hw =>
      cases hw with
      | block _ _ =>
          constructor
          · simp [Token.startsMark, Token.blockOpen, Token.mustacheOpen]
          · intro hb
            cases hb
  | @comment comment =>
      obtain ⟨value, html, span⟩ := comment
      cases html with
      | true =>
          exact ⟨by simp [Comment.source, Token.startsMark, Token.commentOpen],
            fun _ => by simp [Comment.source, Token.commentOpen]⟩
      | false =>
          constructor
          · simp [Comment.source, Token.startsMark, Token.longRemarkOpen, Token.mustacheOpen]
          · intro hb
            cases hb

/-- A statement that fits before others stands in front of their text. -/
theorem Statement.meets_of_fits {s : Statement} {ss : List Statement} {texts : List Char}
    {braceCloses : Bool} {r : List Char} (h : s.fitsBefore braceCloses ss = true)
    (hw : WritesStatements ss texts) (hss : statementsPrintable ss braceCloses = true)
    (hr : ClosesList braceCloses r) : s.Meets (texts ++ r) := by
  cases s with
  | text t =>
      cases hw with
      | nil =>
          rw [fitsBefore, Bool.not_eq_true', Bool.and_eq_false_iff] at h
          exact ⟨hr.1, fun hb => hr.2 (h.resolve_right (by simp [hb]))⟩
      | @cons next ss text texts hnext _ =>
          simp only [statementsPrintable, Bool.and_eq_true] at hss
          have hnt : ∀ t', next ≠ .text t' := by
            rintro t' rfl
            cases h
          have hfits : (next.startsWithBrace && Token.endsWithBrace t.chars.toList) = false := by
            cases next with
            | text t' => exact absurd rfl (hnt t')
            | _ => simpa only [fitsBefore, Bool.not_eq_true'] using h
          obtain ⟨hmark, hbrace⟩ := hnext.startsMark hss.1.1 hnt (texts ++ r)
          rw [List.append_assoc]
          exact ⟨.inr hmark, fun hb => hbrace
            ((Bool.and_eq_false_iff.mp hfits).resolve_right (by simp [hb]))⟩
  | _ => trivial

/-! ## The tree -/

/-- The name in the closing mark of a block. -/
def Call.name (call : Call) : String := call.calleeText?.getD ""

theorem Expression.pathText?_eraseSpans (e : Expression) :
    e.eraseSpans.pathText? = e.pathText? := by
  cases e <;> rfl

theorem Call.name_eraseSpans (call : Call) : call.eraseSpans.name = call.name := by
  obtain ⟨callee, params, hash⟩ := call
  exact congrArg (Option.getD · "") (Expression.pathText?_eraseSpans callee)

theorem Call.name_eq_of_erase {call call' : Call} (h : call'.eraseSpans = call.eraseSpans) :
    call'.name = call.name := by
  rw [← name_eraseSpans, h, name_eraseSpans]

theorem Call.isPathChar_name {call : Call} {withParams : Bool}
    (h : call.isPrintable withParams = true) :
    ∀ x ∈ call.name.toList, Token.isPathChar x = true := by
  obtain ⟨callee, params, hash⟩ := call
  simp only [isPrintable, Bool.and_eq_true] at h
  cases callee with
  | path p => exact (Path.isPrintable_iff.mp h.1.1.1).1.2
  | literal l => exact fun x hx => nomatch hx
  | sub call span => exact fun x hx => nomatch hx

theorem blockClose_closesList (r : List Char) : ClosesList true (Token.blockClose ++ r) :=
  ⟨.inr (by simp [Token.startsMark, Token.blockClose, Token.mustacheOpen]), fun h => nomatch h⟩

theorem inverse_closesList {inverse : Option Block} {text : List Char}
    (h : WritesInverse inverse text) (r : List Char) :
    ClosesList true (text ++ (Token.blockClose ++ r)) := by
  cases h with
  | none => exact blockClose_closesList r
  | bare _ =>
      exact ⟨.inr (by simp [Token.startsMark, Token.elseOpen, Token.mustacheOpen]),
        fun h => nomatch h⟩
  | chained _ _ =>
      exact ⟨.inr (by simp [Token.startsMark, Token.elseOpen, Token.mustacheOpen]),
        fun h => nomatch h⟩

theorem closingTag_closesList (braceCloses : Bool) (r : List Char) :
    ClosesList braceCloses (Token.closingTagOpen ++ r) :=
  ⟨.inr (by simp [Token.startsMark, Token.startsTag, Token.closingTagOpen]),
    fun _ => by simp [Token.closingTagOpen]⟩

theorem chainedElse_readsBack {call : Call} {params : List String} {r : List Char}
    (h : call.isPrintable (!params.isEmpty) = true) (hp : params.all isArgumentName = true)
    (c : Cursor)
    (hc : c.rest = Token.elseOpen ++ ' ' :: (call.source ++ behindCall params r)) :
    ∃ call' span d, ReadsItem c (.elseMark (some ⟨call', params, c.offset⟩) span) d ∧
      d.rest = r ∧ call'.eraseSpans = call.eraseSpans := by
  have hin : (behindElse c).rest = call.source ++ behindCall params r :=
    Cursor.rest_skipSpace_of_blank (Cursor.rest_advance hc) (Call.ends_isSpace h _)
  obtain ⟨x, others, hs, hx⟩ := call.source_head h
  have hbrace : x ≠ '}' := Token.ne_of_class hx (by decide)
  have hopen : (behindElse c).startsWith Token.mustacheClose = false := by
    rw [hs] at hin
    exact Cursor.not_startsWith_of_head hin hbrace
  obtain ⟨call', d, hread, hd, he⟩ := blockHeadReadsBack h hp c.offset _ hin
  exact ⟨call', _, _, .chainedElse (by rw [hc]; rfl) hopen hread (Cursor.startsWith_of_rest hd),
    Cursor.rest_advance hd, he⟩

mutual
theorem WritesStatement.readsBack : {s : Statement} → {text : List Char} →
    WritesStatement s text → s.isPrintable = true → {r : List Char} → s.Meets r →
    ReadsBack (fun c s d => ReadsStatements c [s] d) Statement.eraseSpans s text r
  | _, _, .element he, h, r, _ => he.readsBack h r
  | _, _, .text, h, r, hr => fun c hc =>
      have ⟨s', d, hread, hd, he⟩ := Text.readsBack h hr c hc
      ⟨s', d, .leaf hread .nil, hd, he⟩
  | _, _, .mustache (m := m), h, r, _ => fun c hc => by
      have h : (m.isPrintable && (m.trusting || !m.call.callee.isWord "else")) = true := h
      rw [Bool.and_eq_true] at h
      obtain ⟨s', d, hread, hd, he⟩ := Mustache.item_readsBack h.1 h.2 c hc
      exact ⟨s', d, .leaf hread .nil, hd, he⟩
  | _, _, .block hb, h, r, _ => hb.readsBack h r
  | _, _, .comment, h, r, _ => fun c hc =>
      have ⟨s', d, hread, hd, he⟩ := Comment.readsBack h c hc
      ⟨s', d, .leaf hread .nil, hd, he⟩
theorem WritesElement.readsBack : {e : Element} → {text : List Char} → WritesElement e text →
    e.isPrintable = true → (r : List Char) →
    ReadsBack (fun c s d => ReadsStatements c [s] d) Statement.eraseSpans (.element e) text r
  | ⟨tag, attributes, modifiers, children, selfClosing, span⟩, _, .element hchildren', h, r => by
      rename_i text
      intro c hc
      simp only [Element.isPrintable, Bool.and_eq_true, Bool.or_eq_true, Bool.not_eq_true',
        List.isEmpty_iff] at h
      obtain ⟨⟨⟨⟨htag, hattributes⟩, hmodifiers⟩, hvoid⟩, hchildren⟩ := h
      by_cases hw : (selfClosing || Element.voidTags.contains tag) = true
      · obtain rfl := hvoid.resolve_left (by rw [hw]; decide)
        have hc : c.rest = openingSource tag attributes modifiers ++ (tagEnd selfClosing ++ r) := by
          rw [hc, List.append_assoc]
          cases selfClosing <;> simp_all [tagEnd]
        obtain ⟨opened, d, hopen, hd, rfl, rfl, hea, hem⟩ :=
          openTag_readsBack htag hattributes hmodifiers selfClosing hc
        refine ⟨_, d, .whole hopen hw .nil, hd, ?_⟩
        simp only [OpeningTag.close, Statement.eraseSpans, Element.eraseSpans, hea, hem]
      · have hc : c.rest = openingSource tag attributes modifiers ++ (tagEnd selfClosing ++
            (text ++ (Token.closingTagOpen ++ (tag.toList ++ (Token.tagClose ++ r))))) := by
          rw [Bool.not_eq_true, Bool.or_eq_false_iff] at hw
          rw [hc, hw.1, if_neg (by decide), hw.2, if_neg (by decide)]
          simp [tagEnd]
        obtain ⟨opened, d, hopen, hd, rfl, rfl, hea, hem⟩ :=
          openTag_readsBack htag hattributes hmodifiers selfClosing hc
        obtain ⟨children', d', hread, hd', hec⟩ :=
          hchildren'.readsBack hchildren (closingTag_closesList _ _) d hd
        obtain ⟨stop, e, hclose, he⟩ := closeTag_readsBack htag hd'
        have hw : opened.isWhole = false := by simpa [OpeningTag.isWhole] using hw
        refine ⟨_, e, .element hopen hw hread hclose .nil, he, ?_⟩
        simp only [OpeningTag.close, Statement.eraseSpans, Element.eraseSpans, hea, hem, hec]
theorem WritesBlock.readsBack : {b : BlockStatement} → {text : List Char} → WritesBlock b text →
    b.isPrintable = true → (r : List Char) →
    ReadsBack (fun c s d => ReadsStatements c [s] d) Statement.eraseSpans (.block b) text r
  | ⟨call, ⟨body, params⟩, inverse, span⟩, _, .block hbody' hinverse', h, r => by
      rename_i text otherwise
      intro c hc
      simp only [BlockStatement.isPrintable, Bool.and_eq_true] at h
      obtain ⟨⟨⟨hcall, hparams⟩, hbody⟩, hinverse⟩ := h
      have hc : c.rest = Token.blockOpen ++ (call.source ++ behindCall params
          (text ++ (otherwise ++
            (Token.blockClose ++ (call.name.toList ++ (Token.mustacheClose ++ r)))))) := by
        rw [hc]
        simp [behindCall, Call.name]
      obtain ⟨call', d, hopen, hd, he⟩ := openBlock_readsBack hcall hparams c hc
      obtain ⟨body', d', hread, hd', heb⟩ :=
        hbody'.readsBack hbody (inverse_closesList hinverse' _) d hd
      have hname := Call.isPathChar_name hcall
      rw [← Call.name_eq_of_erase he] at hname hd'
      obtain ⟨b, e, hblock, hrest, hbcall, hbprogram, hei⟩ :=
        hinverse'.readsBack hinverse hname ⟨call', params, c.offset⟩ hread hd'
      refine ⟨.block b, e, .block hopen hblock .nil, hrest, ?_⟩
      obtain ⟨bcall, bprogram, binverse, bspan⟩ := b
      dsimp only at hbcall hbprogram hei
      subst hbcall hbprogram
      simp only [Statement.eraseSpans, BlockStatement.eraseSpans, Block.eraseSpans, he, heb, hei]
theorem WritesInverse.readsBack : {inverse : Option Block} → {text : List Char} →
    WritesInverse inverse text → inversePrintable inverse = true → {name : String} →
    (∀ x ∈ name.toList, Token.isPathChar x = true) → (head : BlockHead) →
    {c₀ c : Cursor} → {program : List Statement} → ReadsStatements c₀ program c → {r : List Char} →
    c.rest = text ++ (Token.blockClose ++ (name.toList ++ (Token.mustacheClose ++ r))) →
    ∃ b d, ReadsBlock name head c₀ b d ∧ d.rest = r ∧ b.call = head.call ∧
      b.program = ⟨program, head.params⟩ ∧ eraseInverseSpans b.inverse = eraseInverseSpans inverse
  | _, _, .none, _, name, hn, head, c₀, c, program, hp, r, hc => by
      obtain ⟨span, d, hclose, hd⟩ := closeBlock_readsBack hn hc
      exact ⟨_, d, .close hp hclose, hd, rfl, rfl, rfl⟩
  | some ⟨body, params⟩, _, .bare hbody', h, name, hn, head, c₀, c, program, hp, r, hc => by
      rename_i text
      simp only [inversePrintable, Bool.and_eq_true, List.isEmpty_iff] at h
      obtain ⟨rfl, hbody⟩ := h
      have hc : c.rest = Token.elseOpen ++ (Token.mustacheClose ++ (text ++
          (Token.blockClose ++ (name.toList ++ (Token.mustacheClose ++ r))))) := by
        rw [hc]
        simp [blockParamsSource]
      obtain ⟨mark, d, hmark, hd⟩ := elseMark_readsBack hc
      obtain ⟨body', d', hread, hd', heb⟩ :=
        hbody'.readsBack hbody (blockClose_closesList _) d hd
      obtain ⟨span, e, hclose, he⟩ := closeBlock_readsBack hn hd'
      refine ⟨_, e, .inverse hp hmark hread hclose, he, rfl, rfl, ?_⟩
      simp only [BlockHead.close, eraseInverseSpans, Block.eraseSpans, heb]
  | some ⟨[.block ⟨call, ⟨body, params⟩, inverse, span⟩], []⟩, _, .chained hbody' hinverse', h,
      name, hn, head, c₀, c, program, hp, r, hc => by
      rename_i text otherwise
      simp only [inversePrintable, statementsPrintable, Statement.isPrintable,
        BlockStatement.isPrintable, Bool.and_eq_true] at h
      obtain ⟨-, ⟨⟨⟨⟨hcall, hparams⟩, hbody⟩, hinverse⟩, -⟩, -⟩ := h
      have hc : c.rest = Token.elseOpen ++ ' ' :: (call.source ++ behindCall params
          (text ++ (otherwise ++
            (Token.blockClose ++ (name.toList ++ (Token.mustacheClose ++ r)))))) := by
        rw [hc]
        simp [behindCall]
      obtain ⟨call', mark, d, hmark, hd, he⟩ := chainedElse_readsBack hcall hparams c hc
      obtain ⟨body', d', hread, hd', heb⟩ :=
        hbody'.readsBack hbody (inverse_closesList hinverse' _) d hd
      obtain ⟨b, e, hblock, hrest, hbcall, hbprogram, hei⟩ :=
        hinverse'.readsBack hinverse hn ⟨call', params, c.offset⟩ hread hd'
      refine ⟨_, e, .chain hp hmark hblock, hrest, rfl, rfl, ?_⟩
      obtain ⟨bcall, bprogram, binverse, bspan⟩ := b
      dsimp only at hbcall hbprogram hei
      subst hbcall hbprogram
      simp only [BlockHead.close, eraseInverseSpans, Block.eraseSpans, eraseStatementsSpans,
        Statement.eraseSpans, BlockStatement.eraseSpans, he, heb, hei]
theorem WritesStatements.readsBack : {ss : List Statement} → {texts : List Char} →
    WritesStatements ss texts → {braceCloses : Bool} → statementsPrintable ss braceCloses = true →
    {r : List Char} → ClosesList braceCloses r →
    ReadsBack ReadsStatements eraseStatementsSpans ss texts r
  | _, _, .nil, _, _, _, _ => fun c hc => ⟨[], c, .nil, hc, rfl⟩
  | s :: ss, _, .cons hs' hss', braceCloses, h, r, hr => by
      intro c hc
      simp only [statementsPrintable, Bool.and_eq_true] at h
      obtain ⟨⟨hs, hfits⟩, hss⟩ := h
      rw [List.append_assoc] at hc
      obtain ⟨s', d, hread, hd, he⟩ :=
        hs'.readsBack hs (Statement.meets_of_fits hfits hss' hss hr) c hc
      obtain ⟨ss', e, hreads, hrest, hes⟩ := hss'.readsBack hss hr d hd
      refine ⟨s' :: ss', e, hread.append hreads, hrest, ?_⟩
      rw [eraseStatementsSpans, eraseStatementsSpans, he, hes]
end

/-! ## Templates -/

namespace Template

/-- Every text of a template that can be written is read as the template. -/
theorem WrittenAs.parse {t : Template} {text : String} (hw : t.WrittenAs text)
    (h : t.isPrintable = true) (filename : String) :
    ∃ t', Template.parse text filename = .ok t' ∧ t'.eraseSpans = t.eraseSpans := by
  obtain ⟨body, params⟩ := t
  rw [isPrintable, Bool.and_eq_true, List.isEmpty_iff] at h
  obtain ⟨rfl, hbody⟩ := h
  obtain ⟨body', d, hread, hd, he⟩ := WritesStatements.readsBack hw hbody ⟨.inl rfl, by simp⟩
    (Cursor.ofChars text.toList) (List.append_nil _).symm
  have hparse : Template.ofChars text.toList = .ok ⟨body', []⟩ :=
    ofChars_eq_ok_iff.mpr ⟨rfl, d, hread, hd⟩
  refine ⟨⟨body', []⟩, ?_, by rw [eraseSpans, eraseSpans, he]⟩
  rw [Template.parse, hparse]

/-- Whichever of its inverses are written in chained form, a template that can be written is
read as the same tree that its printed text is read as. -/
theorem parse_chained {t : Template} (h : t.isPrintable = true) {text : String}
    (hw : t.WrittenAs text) (filename : String) :
    ∃ t' printed, parse text filename = .ok t' ∧ parse t.print filename = .ok printed ∧
      t'.eraseSpans = printed.eraseSpans ∧ t'.eraseSpans = t.eraseSpans := by
  obtain ⟨t', hparse, he⟩ := hw.parse h filename
  obtain ⟨printed, hprinted, hep⟩ := t.writtenAs_print.parse h filename
  exact ⟨t', printed, hparse, hprinted, he.trans hep.symm, he⟩

/-- A chain in an element: three calls, one of them with block parameters, and a bare else
mark at its end. -/
def ladder : Template where
  body := [
    .element ⟨"p", [], [], [
      .block ⟨⟨.path ⟨"if", .none⟩, [.path ⟨"a", .none⟩], []⟩, ⟨[.text ⟨"1", .none⟩], []⟩,
        some ⟨[.block ⟨⟨.path ⟨"let", .none⟩, [.path ⟨"b", .none⟩], []⟩,
          ⟨[.text ⟨"2", .none⟩], ["x"]⟩,
          some ⟨[.block ⟨⟨.path ⟨"unless", .none⟩, [.path ⟨"c", .none⟩], []⟩,
            ⟨[.text ⟨"3", .none⟩], []⟩, some ⟨[.text ⟨"4", .none⟩], []⟩, .none⟩], []⟩, .none⟩],
          []⟩, .none⟩], false, .none⟩]

/-- The text of the chain. -/
def ladderText : String :=
  "<p>\x7b\x7b#if a\x7d\x7d1\x7b\x7belse let b as |x|\x7d\x7d2" ++
    "\x7b\x7belse unless c\x7d\x7d3\x7b\x7belse\x7d\x7d4\x7b\x7b/if\x7d\x7d</p>"

theorem ladder_writtenAs : ladder.WrittenAs ladderText :=
  .cons (.element (.element (.cons (.block (.block (.cons .text .nil)
    (.chained (.cons .text .nil) (.chained (.cons .text .nil) (.bare (.cons .text .nil))))))
    .nil))) .nil

theorem parse_chained_ladder : ladder.isPrintable = true ∧ ladder.WrittenAs ladderText ∧
    ∃ t' printed, parse ladderText "ladder.hbs" = .ok t' ∧
      parse ladder.print "ladder.hbs" = .ok printed ∧
      t'.eraseSpans = printed.eraseSpans ∧ t'.eraseSpans = ladder.eraseSpans :=
  ⟨by decide, ladder_writtenAs, parse_chained (by decide) ladder_writtenAs "ladder.hbs"⟩

end Template

end Bracework
