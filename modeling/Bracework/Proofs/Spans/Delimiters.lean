/-
Spans — what stands at the two ends of a mark.

A derivation says which marks a source has at its places, and leaves the text of a mark
to the cursor that passes it.  Here that text is written out: the name in a closing tag or
a closing mark with blanks around it, and the beginning and the end of what opens an
element or a block.  What lies between two places may be any text, so what ends with a
mark does so from every place before it.
-/
import Bracework.Proofs.Reading.Openers

namespace Bracework

open Reading Cursor

/-! ## Closing tags and closing marks -/

/-- A text is a closing tag of a name. -/
def ClosesTag (name : String) (text : List Char) : Prop :=
  ∃ blanks, IsBlank blanks ∧ text = Token.closingTagOpen ++ name.toList ++ blanks ++ Token.tagClose

/-- A text is a closing mark of a name. -/
def ClosesBlock (name : String) (text : List Char) : Prop :=
  ∃ before behind, IsBlank before ∧ IsBlank behind ∧
    text = Token.blockClose ++ before ++ name.toList ++ behind ++ Token.mustacheClose

/-- What an opening tag ends with. -/
def OpeningTag.closing (selfClosing : Bool) : List Char :=
  if selfClosing then Token.selfClose else Token.tagClose

/-! ## The texts of marks -/

namespace Cursor

variable {c d e : Cursor}

/-- A name, blanks and a mark stand at a place. -/
theorem passes_name {test : Char → Bool} {token : List Char}
    (h : (c.skip test).skipSpace.startsWith token = true) :
    ∃ blanks, IsBlank blanks ∧ c.Passes (c.taken test ++ blanks ++ token)
      ((c.skip test).skipSpace.advance token.length) :=
  ⟨_, isBlank_taken _,
    ((c.passes_skip test).append (passes_skip _ _)).append (passes_of_startsWith h)⟩

/-- A text that ends with a mark stands at a place, and one that ends with the same mark at every
place before it. -/
theorem Reaches.passes_append {closing : List Char} (h : c.Reaches d)
    (h' : ∃ content, d.Passes (content ++ closing) e) :
    ∃ content, c.Passes (content ++ closing) e := by
  obtain ⟨text, htext⟩ := h
  obtain ⟨content, hcontent⟩ := h'
  exact ⟨text ++ content, List.append_assoc .. ▸ htext.append hcontent⟩

end Cursor

namespace Reading

theorem ReadsItem.closeTag_passes {c d : Cursor} {name : String} {span : Span}
    (h : ReadsItem c (.closeTag name span) d) : ∃ text, c.Passes text d ∧ ClosesTag name text := by
  cases h with
  | closingTag hm hd ht he =>
      subst hd he
      have hopen := passes_of_startsWith (Mark.fits_of_eq hm)
      obtain ⟨blanks, hblank, hname⟩ := passes_name ht
      refine ⟨_, hopen.append hname, blanks, hblank, ?_⟩
      simp only [String.toList_ofList, List.append_assoc]

theorem ReadsItem.closeBlock_passes {c d : Cursor} {name : String} {span : Span}
    (h : ReadsItem c (.closeBlock name span) d) :
    ∃ text, c.Passes text d ∧ ClosesBlock name text := by
  cases h with
  | closingBlock hm hd ht he =>
      subst hd he
      have hopen := passes_of_startsWith (Mark.fits_of_eq hm)
      have hbefore : (c.advance Token.blockClose.length).Passes
          ((c.advance Token.blockClose.length).taken CharClass.isSpace) (behindBlockClose c) :=
        passes_skip ..
      obtain ⟨behind, hblank, hname⟩ := passes_name ht
      refine ⟨_, (hopen.append hbefore).append hname,
        (c.advance Token.blockClose.length).taken CharClass.isSpace, behind, isBlank_taken _,
        hblank, ?_⟩
      simp only [String.toList_ofList, List.append_assoc]

theorem ReadsTagBody.passes {c d : Cursor} {attributes : List Attribute}
    {modifiers : List Mustache} {selfClosing : Bool}
    (h : ReadsTagBody c attributes modifiers selfClosing d) :
    ∃ content, c.Passes (content ++ OpeningTag.closing selfClosing) d := by
  induction h with
  | selfClose hs => exact ⟨_, (passes_skip ..).append (passes_of_startsWith hs)⟩
  | close hr =>
      have hclose : [('>' : Char)] <+: _ := ⟨_, hr.symm⟩
      exact ⟨_, (passes_skip ..).append (passes_advance hclose)⟩
  | modifier _ hm _ ih => exact ((reaches_skipSpace _).trans hm.reaches).passes_append ih
  | attr _ _ _ ha _ ih => exact ((reaches_skipSpace _).trans ha.reaches).passes_append ih

theorem ReadsItem.openTag_passes {c d : Cursor} {tag : OpeningTag}
    (h : ReadsItem c (.openTag tag) d) : ∃ content, c.Passes
      (Token.tagOpen ++ tag.tag.toList ++ content ++ OpeningTag.closing tag.selfClosing) d := by
  cases h with
  | openingTag _ ht =>
      cases ht with
      | tag ho hb =>
          obtain ⟨content, hcontent⟩ := hb.passes
          have hname := (passes_of_startsWith ho).append (passes_skip _ Token.isTagChar)
          refine ⟨content, ?_⟩
          simp only [String.toList_ofList, List.append_assoc] at hname ⊢
          simpa only [List.append_assoc] using hname.append hcontent

end Reading

/-- The closing mark at the end of a block, behind as many else marks as there may be. -/
theorem ReadsBlock.ends {c d : Cursor} {name : String} {head : BlockHead} {b : BlockStatement} :
    ReadsBlock name head c b d → ∃ m span, c.Reaches m ∧ ReadsItem m (.closeBlock name span) d ∧
      b.span = ⟨head.start, span.stop⟩
  | .close hp hcl => ⟨_, _, hp.reaches, hcl, rfl⟩
  | .inverse hp he hv hcl => ⟨_, _, hp.reaches.trans (he.reaches.trans hv.reaches), hcl, rfl⟩
  | .chain hp he hb => by
      obtain ⟨m, span, hreach, hcl, hspan⟩ := ReadsBlock.ends hb
      refine ⟨m, span, hp.reaches.trans (he.reaches.trans hreach), hcl, ?_⟩
      rw [BlockHead.close, hspan]

theorem ReadsBlock.passes {name : String} {head : BlockHead} {c d : Cursor} {b : BlockStatement}
    (h : ReadsBlock name head c b d) :
    ∃ closing, ClosesBlock name closing ∧ ∃ content, c.Passes (content ++ closing) d := by
  obtain ⟨m, span, hreach, hcl, -⟩ := h.ends
  obtain ⟨closing, hpass, hcloses⟩ := hcl.closeBlock_passes
  exact ⟨closing, hcloses, hreach.passes_append ⟨[], hpass⟩⟩

theorem ReadsBlock.span_eq {name : String} {head : BlockHead} {c d : Cursor}
    {b : BlockStatement} (h : ReadsBlock name head c b d) : b.span = d.spanFrom head.start := by
  obtain ⟨m, span, -, hcl, hspan⟩ := h.ends
  rw [hspan, hcl.closeBlock_span]
  rfl

theorem ReadsBlock.call_eq {name : String} {head : BlockHead} {c d : Cursor}
    {b : BlockStatement} (h : ReadsBlock name head c b d) : b.call = head.call := by
  cases h <;> rfl

end Bracework
