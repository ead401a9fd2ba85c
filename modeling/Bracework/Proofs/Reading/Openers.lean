/-
Reading — what a reader was called with, and where that was read.

Some readers are called with what was read before them: the offset of an opening
mark, the tag whose content they read, the head of the block that they are in.
They use it only when they give up, so no derivation says where it comes from.
`Founded` does: an offset is that of a place before, and a tag or a head was read
up to the place where its content begins.  A reader hands on what it was called
with or what it has just read, so this holds at every place that is entered, and
the span of every error runs from one place of the source to a later one.
-/
import Bracework.Proofs.Reading.Outcome
import Bracework.Proofs.Spans.Exact

namespace Bracework

open Reading Cursor Relation

/-! ## Opening marks -/

/-- The end of a source is behind each of its places. -/
theorem Cursor.reaches_end (c : Cursor) : c.Reaches ⟨[], c.limit⟩ :=
  ⟨c.rest, (List.append_nil _).symm, rfl⟩

/-- A text that stands at a place and one that stands behind it stand there together. -/
theorem Cursor.startsWith_append {c : Cursor} {token text : List Char}
    (h : c.startsWith token = true) (h' : (c.advance token.length).startsWith text = true) :
    c.startsWith (token ++ text) = true := by
  obtain ⟨after, hafter⟩ := startsWith_iff.mp h'
  refine startsWith_iff.mpr ⟨after, ?_⟩
  rw [(passes_advance (startsWith_iff.mp h)).1, List.append_assoc, hafter]

/-- The characters at a place that satisfy a test stand there. -/
theorem Cursor.startsWith_taken (c : Cursor) (test : Char → Bool) :
    c.startsWith (c.taken test) = true :=
  startsWith_iff.mpr (List.takeWhile_prefix test)

namespace Reading

/-- The mark that a block opens with. -/
theorem ReadsItem.openBlock_startsWith {c d : Cursor} {head : BlockHead}
    (h : ReadsItem c (.openBlock head) d) : c.startsWith Token.blockOpen = true := by
  cases h with
  | openingBlock hm _ _ => exact Mark.fits_of_eq hm

/-- The mark that an else mark opens with, whatever is chained. -/
theorem ReadsItem.elseMark_startsWith {c d : Cursor} {chained : Option BlockHead} {span : Span}
    (h : ReadsItem c (.elseMark chained span) d) : c.startsWith Token.elseOpen = true := by
  cases h with
  | bareElse hm _ => exact (Bool.and_eq_true_iff.mp (Mark.fits_of_eq hm)).1
  | chainedElse hm _ _ _ => exact (Bool.and_eq_true_iff.mp (Mark.fits_of_eq hm)).1

theorem ReadsItem.elseMark_span {c d : Cursor} {chained : Option BlockHead} {span : Span}
    (h : ReadsItem c (.elseMark chained span) d) : span = d.spanFrom c.offset := by
  cases h with
  | bareElse => rfl
  | chainedElse => rfl

/-- Behind an angle the name of the tag stands, however short. -/
theorem startsWith_tagName {c : Cursor} (h : c.startsWith Token.tagOpen = true) :
    c.startsWith ('<' :: (String.ofList
      ((c.advance Token.tagOpen.length).taken Token.isTagChar)).toList) = true := by
  rw [String.toList_ofList]
  exact startsWith_append h (startsWith_taken _ _)

theorem ReadsItem.openTag_startsWith {c d : Cursor} {tag : OpeningTag}
    (h : ReadsItem c (.openTag tag) d) : c.startsWith ('<' :: tag.tag.toList) = true := by
  cases h with
  | openingTag _ ht =>
      cases ht with
      | tag ho _ => exact startsWith_tagName ho

end Reading

/-- Behind the head of the last block of a chain the mark that opens the chain is passed. -/
theorem OpenChain.precedes {name : String} {b c : Cursor} {outer : List ChainLink}
    {head : BlockHead} (h : OpenChain name b outer head c) : b.Precedes c := by
  induction h with
  | head hi _ => exact hi.precedes
  | link _ hp he ih => exact ih.trans_reaches (hp.reaches.trans he.reaches)

/-- The last block of a chain starts at a mark between the first mark and its own content: the one
that opens the chain, or an else mark behind it. -/
theorem OpenChain.opens {name : String} {b c : Cursor} {outer : List ChainLink}
    {head : BlockHead} (h : OpenChain name b outer head c) :
    ∃ a, b.Reaches a ∧ a.Reaches c ∧ head.start = a.offset ∧
      (outer = [] → a = b) ∧
      (outer ≠ [] → b.Precedes a ∧ a.startsWith Token.elseOpen = true) := by
  cases h with
  | head hi _ =>
      exact ⟨b, .refl b, hi.reaches, hi.openBlock_start, fun _ => rfl, fun hne => absurd rfl hne⟩
  | link hc hp he =>
      have hmark := hc.precedes.trans_reaches hp.reaches
      exact ⟨_, hmark.reaches, he.reaches, he.chainedElse_start,
        fun hnil => absurd hnil (List.cons_ne_nil _ _), fun _ => ⟨hmark, he.elseMark_startsWith⟩⟩

/-- The mark that opens a chain stands at its beginning. -/
theorem OpenChain.startsWith {name : String} {b c : Cursor} {outer : List ChainLink}
    {head : BlockHead} (h : OpenChain name b outer head c) :
    b.startsWith Token.blockOpen = true := by
  induction h with
  | head hi _ => exact hi.openBlock_startsWith
  | link _ _ _ ih => exact ih

/-- The program of a block stands at a place, and a bare else mark, which divides the block, behind
it; reading goes on at another. -/
def Divides (c d : Cursor) : Prop :=
  ∃ program e mark, ReadsStatements c program e ∧ ReadsItem e (.elseMark none mark) d

theorem Divides.reaches {c d : Cursor} (h : Divides c d) : c.Reaches d := by
  obtain ⟨program, e, mark, hprogram, hmark⟩ := h
  exact hprogram.reaches.trans hmark.reaches

/-! ## What readers are called with -/

/-- An offset is that of a place of the source at another place or before it. -/
def StartsBefore (source : List Char) (start : Nat) (c : Cursor) : Prop :=
  ∃ b, (ofChars source).Reaches b ∧ b.Reaches c ∧ b.offset = start

theorem StartsBefore.self {source : List Char} {c : Cursor} (h : (ofChars source).Reaches c) :
    StartsBefore source c.offset c := ⟨c, h, .refl c, rfl⟩

theorem StartsBefore.trans {source : List Char} {start : Nat} {c d : Cursor}
    (h : StartsBefore source start c) (h' : c.Reaches d) : StartsBefore source start d := by
  obtain ⟨b, hb, hbc, hstart⟩ := h
  exact ⟨b, hb, hbc.trans h', hstart⟩

/-- What the reader at a place was called with was read in the source: an offset is that of a place
before, the offset of a tag is that of its angle, and a tag or the head of a block was read up to
the place where its content begins. -/
def Place.Founded (source : List Char) : Place → Prop
  | ⟨.call start, c⟩ => StartsBefore source start c
  | ⟨.blockHead start, c⟩ => StartsBefore source start c
  | ⟨.tagBody tag start, c⟩ => ∃ b, (ofChars source).Reaches b ∧ b.Reaches c ∧ b.offset = start ∧
      b.startsWith ('<' :: tag.toList) = true
  | ⟨.children tag, c⟩ => ∃ b, (ofChars source).Reaches b ∧ ReadsItem b (.openTag tag) c
  | ⟨.block name head, c⟩ =>
      ∃ b outer, (ofChars source).Reaches b ∧ OpenChain name b outer head c
  | ⟨.inverse name head, c⟩ =>
      ∃ b outer d, (ofChars source).Reaches b ∧ OpenChain name b outer head d ∧ Divides d c
  | _ => True

/-- A reader hands on what it was called with, or what it has just read. -/
theorem Enters.founded {source : List Char} {p q : Place} (h : Enters p q)
    (hp : (ofChars source).Reaches p.cursor) (hf : p.Founded source) : q.Founded source := by
  cases h with
  | inverse hs hi =>
      obtain ⟨b, outer, hb, hchain⟩ := hf
      exact ⟨b, outer, _, hb, hchain, _, _, _, hs, hi⟩
  | chain hs hi =>
      obtain ⟨b, outer, hb, hchain⟩ := hf
      exact ⟨b, _, hb, hchain.link hs hi⟩
  | children hi _ => exact ⟨_, hp, hi⟩
  | block hi => exact ⟨_, [], hp, .head hi rfl⟩
  | chainedHead _ _ =>
      exact (StartsBefore.self hp).trans ((reaches_advance ..).trans (reaches_skipSpace _))
  | openingHead _ =>
      exact (StartsBefore.self hp).trans ((reaches_advance ..).trans (reaches_skipSpace _))
  | tagBody ht =>
      exact ⟨_, hp, (reaches_advance ..).trans (reaches_skip ..), rfl, startsWith_tagName ht⟩
  | afterModifier _ hm =>
      obtain ⟨b, hb, hbc, hstart, htag⟩ := hf
      exact ⟨b, hb, hbc.trans ((reaches_skipSpace _).trans hm.reaches), hstart, htag⟩
  | afterAttr _ _ _ ha =>
      obtain ⟨b, hb, hbc, hstart, htag⟩ := hf
      exact ⟨b, hb, hbc.trans ((reaches_skipSpace _).trans ha.reaches), hstart, htag⟩
  | headCall => exact hf
  | mustacheCall _ _ =>
      exact (StartsBefore.self hp).trans ((reaches_advance ..).trans (reaches_skipSpace _))
  | sub _ => exact (StartsBefore.self hp).trans ((reaches_advance ..).trans (reaches_skipSpace _))
  | body | content | program | otherwise | item | nextStatement | closingTagEnd | closingBlockEnd
  | chainedEnd | openingEnd | mustacheItem | tagItem | textItem | nextChar | tagStart | modifier
  | attr | value | mustacheValue | parts | nextPartChar | part | afterPart | paramsBar | names
  | nextName | mustacheStart | mustacheEnd | callee | arguments | named | afterNamed | positional
  | afterPositional | subEnd => exact trivial

theorem Visits.founded {source : List Char} {p : Place} (h : Visits source p) :
    p.Founded source := by
  induction h with
  | refl => exact trivial
  | tail hp hq ih => exact hq.founded (Visits.reaches hp) ih

/-! ## Spans of errors -/

/-- A span runs from one place of a source to another that is not before it. -/
def RunsBetween (source : List Char) (span : Span) : Prop :=
  ∃ b d, (ofChars source).Reaches b ∧ b.Reaches d ∧ span = d.spanFrom b.offset

namespace RunsBetween

variable {source : List Char} {c d : Cursor}

theorem item {span : Span} (hc : (ofChars source).Reaches c) (h : c.Reaches d)
    (hspan : span = d.spanFrom c.offset) : RunsBetween source span := ⟨c, d, hc, h, hspan⟩

theorem here (hc : (ofChars source).Reaches c) : RunsBetween source c.here :=
  ⟨c, c, hc, .refl c, rfl⟩

theorem endsWithout (hc : (ofChars source).Reaches c) (missing : Missing) :
    RunsBetween source (c.endsWithout missing).span :=
  ⟨⟨[], c.limit⟩, ⟨[], c.limit⟩, hc.trans c.reaches_end, .refl _, rfl⟩

theorem of_startsBefore {start : Nat} (h : StartsBefore source start c) (hd : c.Reaches d) :
    RunsBetween source (d.spanFrom start) := by
  obtain ⟨b, hb, hbc, rfl⟩ := h
  exact ⟨b, d, hb, hbc.trans hd, rfl⟩

/-- What is complained of in the last block of a chain runs from the mark of that block. -/
theorem of_chain {name : String} {b : Cursor} {outer : List ChainLink} {head : BlockHead}
    {stop : Nat} (hb : (ofChars source).Reaches b) (h : OpenChain name b outer head c)
    (hd : c.Reaches d) (hstop : stop = d.offset) :
    RunsBetween source (Outline.unclosedBlock name head stop).span := by
  obtain ⟨a, hba, hac, hstart, -⟩ := h.opens
  refine ⟨a, d, hb.trans hba, hac.trans hd, ?_⟩
  rw [Outline.unclosedBlock, hstart, hstop]
  rfl

end RunsBetween

/-- The span of an error that is raised runs between two places of the source. -/
theorem Raises.runsBetween {source : List Char} {p : Place} {e : ParseError} (h : Raises p e)
    (hp : (ofChars source).Reaches p.cursor) (hf : p.Founded source) :
    RunsBetween source e.span := by
  cases h with
  | strayTag hs hi => exact .item (hp.trans hs.reaches) hi.reaches hi.closeTag_span
  | strayBlock hs hi => exact .item (hp.trans hs.reaches) hi.reaches hi.closeBlock_span
  | strayElse hs hi => exact .item (hp.trans hs.reaches) hi.reaches hi.elseMark_span
  | unclosedElement hs _ =>
      obtain ⟨b, hb, hi⟩ := hf
      refine ⟨b, _, hb, hi.reaches.trans hs.reaches, ?_⟩
      rw [hi.openTag_span]
      rfl
  | mismatchedClose hs hi _ => exact .item (hp.trans hs.reaches) hi.reaches hi.closeTag_span
  | blockCloseInElement hs hi => exact .item (hp.trans hs.reaches) hi.reaches hi.closeBlock_span
  | elseInElement hs hi => exact .item (hp.trans hs.reaches) hi.reaches hi.elseMark_span
  | unclosedProgram hs _ =>
      obtain ⟨b, outer, hb, hchain⟩ := hf
      exact .of_chain hb hchain hs.reaches rfl
  | wrongProgramClose hs hi _ => exact .item (hp.trans hs.reaches) hi.reaches hi.closeBlock_span
  | tagCloseInBlock hs hi => exact .item (hp.trans hs.reaches) hi.reaches hi.closeTag_span
  | unclosedInverse hs _ =>
      obtain ⟨b, outer, d, hb, hchain, hdivides⟩ := hf
      exact .of_chain hb hchain (hdivides.reaches.trans hs.reaches) rfl
  | wrongInverseClose hs hi _ => exact .item (hp.trans hs.reaches) hi.reaches hi.closeBlock_span
  | tagCloseInInverse hs hi =>
      obtain ⟨b, outer, d, hb, hchain, hdivides⟩ := hf
      exact .of_chain hb hchain (hdivides.reaches.trans (hs.reaches.trans hi.reaches))
        (congrArg Span.stop hi.closeTag_span)
  | elseInInverse hs hi =>
      obtain ⟨b, outer, d, hb, hchain, hdivides⟩ := hf
      exact .of_chain hb hchain (hdivides.reaches.trans (hs.reaches.trans hi.reaches))
        (congrArg Span.stop hi.elseMark_span)
  | unclosedLongRemark | unclosedRemark | unclosedComment | unclosedQuote | noExpression
  | unclosedString | endBeforeToken => exact .endsWithout hp _
  | endInTag _ =>
      obtain ⟨b, hb, hbc, hstart, -⟩ := hf
      exact .of_startsBefore ⟨b, hb, hbc, hstart⟩ (reaches_skipSpace _)
  | noAttributeName _ => exact .here hp
  | noParam _ _ => exact .here (hp.trans (reaches_skipSpace _))
  | noCallee _ => exact .of_startsBefore hf (.refl _)
  | lateParam _ _ => exact .here (hp.trans (reaches_skipSpace _))
  | @badNumber c first others hr _ _ =>
      refine .item (d := ⟨others.dropWhile isNumeralChar, _⟩) hp ⟨_, ?_, rfl⟩ rfl
      rw [hr, List.cons_append, List.takeWhile_append_dropWhile]
  | @badStart c first others hr _ _ _ =>
      exact .item (d := ⟨others, _⟩) hp ⟨[first], hr, rfl⟩ rfl
  | otherThanToken _ _ => exact .here hp

/-! ## Sources -/

/-- The error of a source that cannot be read. -/
def Template.parseError? (source filename : String) : Option ParseError :=
  match Template.parse source filename with
  | .ok _ => none
  | .error e => some e.error

theorem Template.parse_of_parseError? {source filename : String} {e : ParseError}
    (h : Template.parseError? source filename = some e) :
    Template.parse source filename = .error ⟨e, ⟨source, filename⟩⟩ := by
  rw [parseError?, parse] at h
  rw [parse]
  cases hread : ofChars source.toList with
  | ok t =>
      rw [hread] at h
      cases h
  | error e' =>
      rw [hread] at h
      cases h
      rfl

/-- An error is raised at a place that is entered. -/
theorem Template.raises_of_parse {source filename : String} {e : SourceError}
    (h : Template.parse source filename = .error e) :
    ∃ p, Visits source.toList p ∧ Raises p e.error := by
  rw [parse] at h
  cases hread : ofChars source.toList with
  | ok t =>
      rw [hread] at h
      cases h
  | error e' =>
      rw [hread] at h
      cases h
      exact raises_of_ofChars hread

end Bracework
