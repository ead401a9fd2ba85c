/-
Reading — what was opened and not closed.

An element that is not closed is marked from its angle to the end of the source.  A
block that is not closed is marked from the opening mark of its last link: without a
chain that is the mark that opens the block, and with one it is an else mark, although
the error has the name of the first link.  Nor need the source be at its end: a closing
tag or another else mark in the inverse of a block is met with this error too, which
then marks the source up to there, while a closing tag in the program of a block has an
error of its own.
-/
import Bracework.Proofs.Reading.Openers

namespace Bracework

open Reading Cursor

/-! ## Texts at an offset -/

/-- A text stands in a source behind a number of bytes. -/
def StandsAt (source text : List Char) (offset : Nat) : Prop :=
  ∃ rest, afterBytes? source offset = some rest ∧ text <+: rest

instance (source text : List Char) (offset : Nat) : Decidable (StandsAt source text offset) :=
  decidable_of_iff ((afterBytes? source offset).any text.isPrefixOf = true) <| by
    simp only [StandsAt, Option.any_eq_true, List.isPrefixOf_iff_prefix]

/-- What stands at a place stands at its offset. -/
theorem Cursor.Reaches.standsAt {source text : List Char} {c : Cursor}
    (h : (ofChars source).Reaches c) (ht : c.startsWith text = true) :
    StandsAt source text c.offset := by
  obtain ⟨before, hsource, hoffset⟩ := h
  have hsource : source = before ++ c.rest := hsource
  have hoffset : c.offset = utf8Length before := hoffset.trans (Nat.zero_add _)
  refine ⟨c.rest, ?_, startsWith_iff.mp ht⟩
  rw [hoffset, hsource]
  exact afterBytes?_append ..

/-- A place with nothing left is the end of the source. -/
theorem Cursor.Reaches.offset_eq {source : List Char} {c : Cursor}
    (h : (ofChars source).Reaches c) (hc : c.rest = []) : c.offset = utf8Length source := by
  have hlimit : c.limit = utf8Length source := h.limit_eq.symm.trans (Nat.zero_add _)
  rw [limit, hc] at hlimit
  exact hlimit

/-! ## Where the content of a block breaks off -/

/-- The program of a block, or its inverse, goes on to the end of the source. -/
inductive RunsOut (c : Cursor) : Cursor → Prop
  | program {d : Cursor} {program : List Statement} :
      ReadsStatements c program d → d.rest = [] → RunsOut c d
  | inverse {d e : Cursor} {inverse : List Statement} :
      Divides c d → ReadsStatements d inverse e → e.rest = [] → RunsOut c e

/-- The inverse of a block goes on to a closing tag or to another else mark, which is read. -/
inductive RunsInto (c : Cursor) : Cursor → Prop
  | tag {d e f : Cursor} {inverse : List Statement} {tag : String} {span : Span} :
      Divides c d → ReadsStatements d inverse e → ReadsItem e (.closeTag tag span) f →
      RunsInto c f
  | elseMark {d e f : Cursor} {inverse : List Statement} {chained : Option BlockHead}
      {span : Span} :
      Divides c d → ReadsStatements d inverse e → ReadsItem e (.elseMark chained span) f →
      RunsInto c f

theorem RunsOut.reaches {c d : Cursor} (h : RunsOut c d) : c.Reaches d := by
  cases h with
  | program hp _ => exact hp.reaches
  | inverse hdivides hi _ => exact hdivides.reaches.trans hi.reaches

theorem RunsOut.rest_eq_nil {c d : Cursor} (h : RunsOut c d) : d.rest = [] := by
  cases h with
  | program _ hd => exact hd
  | inverse _ _ hd => exact hd

/-! ## Elements -/

/-- The error of an element that is not closed marks the source from its angle to the end. -/
theorem Raises.unclosedElement_span {source : List Char} {p : Place} {e : ParseError}
    {tag : String} (h : Raises p e) (hp : (ofChars source).Reaches p.cursor)
    (hf : p.Founded source) (he : e.fault = .unclosedElement tag) :
    StandsAt source ('<' :: tag.toList) e.span.start ∧ e.span.stop = utf8Length source := by
  cases h with
  | unclosedElement hs hd =>
      cases he
      obtain ⟨b, hb, hi⟩ := hf
      rw [hi.openTag_span]
      exact ⟨hb.standsAt hi.openTag_startsWith, (hp.trans hs.reaches).offset_eq hd⟩
  | endInTag hc =>
      cases he
      obtain ⟨b, hb, -, hstart, htag⟩ := hf
      subst hstart
      exact ⟨hb.standsAt htag, (hp.trans (reaches_skipSpace _)).offset_eq hc⟩
  | _ => cases he

/-! ## Blocks -/

/-- The error of a block that is not closed marks the source from the mark of the last block in its
chain to where the content of that block breaks off. -/
theorem Raises.unclosedBlock_span {source : List Char} {p : Place} {e : ParseError}
    {name : String} (h : Raises p e) (hf : p.Founded source)
    (he : e.fault = .unclosedBlock name) :
    ∃ b outer head c d, (ofChars source).Reaches b ∧ OpenChain name b outer head c ∧
      e.span = ⟨head.start, d.offset⟩ ∧ (RunsOut c d ∨ RunsInto c d) := by
  cases h with
  | unclosedProgram hs hd =>
      cases he
      obtain ⟨b, outer, hb, hchain⟩ := hf
      exact ⟨b, outer, _, _, _, hb, hchain, rfl, .inl (.program hs hd)⟩
  | unclosedInverse hs hd =>
      cases he
      obtain ⟨b, outer, c, hb, hchain, hdivides⟩ := hf
      exact ⟨b, outer, _, _, _, hb, hchain, rfl, .inl (.inverse hdivides hs hd)⟩
  | tagCloseInInverse hs hi =>
      cases he
      obtain ⟨b, outer, c, hb, hchain, hdivides⟩ := hf
      refine ⟨b, outer, _, _, _, hb, hchain, ?_, .inr (.tag hdivides hs hi)⟩
      rw [hi.closeTag_span]
      rfl
  | elseInInverse hs hi =>
      cases he
      obtain ⟨b, outer, c, hb, hchain, hdivides⟩ := hf
      refine ⟨b, outer, _, _, _, hb, hchain, ?_, .inr (.elseMark hdivides hs hi)⟩
      rw [hi.elseMark_span]
      rfl
  | _ => cases he

/-! ## Sources -/

/-- The error of an element that is not closed marks the source from the angle of the tag to the
end.  That of a block that is not closed marks it from the opening mark of the block, or from the
last else mark if the block is chained, to the end, or to behind a closing tag or an else mark that
the inverse of the block went on to. -/
theorem Template.unclosed_of_parse {source filename : String} {e : SourceError}
    (h : Template.parse source filename = .error e) :
    (∀ tag, e.error.fault = .unclosedElement tag →
      StandsAt source.toList ('<' :: tag.toList) e.error.span.start ∧
        e.error.span.stop = utf8Length source.toList) ∧
    ∀ name, e.error.fault = .unclosedBlock name → ∃ b outer head c d,
      (Cursor.ofChars source.toList).Reaches b ∧ OpenChain name b outer head c ∧
      e.error.span = ⟨head.start, d.offset⟩ ∧
      StandsAt source.toList Token.blockOpen b.offset ∧
      (outer = [] → e.error.span.start = b.offset) ∧
      (outer ≠ [] → b.offset < e.error.span.start ∧
        StandsAt source.toList Token.elseOpen e.error.span.start) ∧
      (RunsOut c d ∧ d.offset = utf8Length source.toList ∨ RunsInto c d) := by
  obtain ⟨p, hvisits, hraises⟩ := raises_of_parse h
  refine ⟨fun tag htag => hraises.unclosedElement_span hvisits.reaches hvisits.founded htag,
    fun name hname => ?_⟩
  obtain ⟨b, outer, head, c, d, hb, hchain, hspan, hends⟩ :=
    hraises.unclosedBlock_span hvisits.founded hname
  obtain ⟨a, hba, hac, hstart, hfirst, hlater⟩ := hchain.opens
  rw [hspan, hstart]
  refine ⟨b, outer, head, c, d, hb, hchain, by rw [hstart], hb.standsAt hchain.startsWith,
    fun hnil => ?_, fun hne => ?_, hends.imp_left fun hout => ⟨hout, ?_⟩⟩
  · rw [hfirst hnil]
  · obtain ⟨hprecedes, helse⟩ := hlater hne
    exact ⟨hprecedes.offset_lt, (hb.trans hba).standsAt helse⟩
  · exact (hb.trans (hba.trans (hac.trans hout.reaches))).offset_eq hout.rest_eq_nil

/-- A source that ends in the inverse of a block. -/
def openBlockSource : String := "<p>ä</p>\x7b\x7b#each xs as |x|\x7d\x7dö\x7b\x7belse\x7d\x7d<br>"

theorem Template.unclosed_of_parse_each :
    ∃ e, Template.parse openBlockSource "open.hbs" = .error e ∧
      e.error = ⟨.unclosedBlock "each", ⟨9, 42⟩⟩ ∧
      ∃ b outer head c d, (Cursor.ofChars openBlockSource.toList).Reaches b ∧
        OpenChain "each" b outer head c ∧ e.error.span = ⟨head.start, d.offset⟩ ∧
        (outer = [] → e.error.span.start = b.offset) ∧
        (RunsOut c d ∧ d.offset = utf8Length openBlockSource.toList ∨ RunsInto c d) := by
  have hread : Template.parseError? openBlockSource "open.hbs" =
      some ⟨.unclosedBlock "each", ⟨9, 42⟩⟩ := by decide +kernel
  have h := parse_of_parseError? hread
  obtain ⟨b, outer, head, c, d, hb, hchain, hspan, -, hstart, -, hends⟩ :=
    (unclosed_of_parse h).2 "each" rfl
  exact ⟨_, h, rfl, b, outer, head, c, d, hb, hchain, hspan, hstart, hends⟩

/-- For a chained block the error stands where no opening mark does, and for a closing tag in an
inverse it does not reach to the end of the source. -/
theorem Template.unclosed_elsewhere :
    (∃ e, Template.parse "\x7b\x7b#if a\x7d\x7d\x7b\x7belse if b\x7d\x7dc" "chain.hbs" = .error e ∧
      e.error.fault = .unclosedBlock "if" ∧
      ¬ StandsAt e.context.source.toList Token.blockOpen e.error.span.start) ∧
    ∃ e, Template.parse
        "<div>\x7b\x7b#if a\x7d\x7dx\x7b\x7belse\x7d\x7dy</div>z" "stray.hbs" = .error e ∧
      e.error.fault = .unclosedBlock "if" ∧
      e.error.span.stop < utf8Length e.context.source.toList := by
  have hchain : Template.parseError? "\x7b\x7b#if a\x7d\x7d\x7b\x7belse if b\x7d\x7dc" "chain.hbs" =
      some ⟨.unclosedBlock "if", ⟨9, 23⟩⟩ := by decide +kernel
  have hstray : Template.parseError?
      "<div>\x7b\x7b#if a\x7d\x7dx\x7b\x7belse\x7d\x7dy</div>z" "stray.hbs" =
        some ⟨.unclosedBlock "if", ⟨5, 30⟩⟩ := by decide +kernel
  exact ⟨⟨_, parse_of_parseError? hchain, rfl, by decide +kernel⟩,
    ⟨_, parse_of_parseError? hstray, rfl, by decide +kernel⟩⟩

end Bracework
