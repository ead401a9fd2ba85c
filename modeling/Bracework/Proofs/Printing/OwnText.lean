/-
Printing — a tree that stands at its own text can be written.

This is the other half of reading back.  If a tree is read where its own text
stands, then nothing in that text was taken for something else, and this is what
being printable means.  The induction is on derivations; each piece is shown to
be printable, so it reads back, and since a reader finds one thing only, reading
goes on exactly behind its text, where the text of the next piece stands.
-/
import Bracework.Proofs.Canonical.Reading
import Bracework.Proofs.Printing.RoundTrip
import Bracework.Proofs.Reading.Passage

namespace Bracework

open Reading

namespace Reading

/-! ## Expressions and calls -/

theorem ReadsExpression.rest_eq {c d : Cursor} {e : Expression} {r : List Char}
    (h : ReadsExpression c e d) (he : e.isPrintable = true) (hr : EndsWord r)
    (hc : c.rest = e.source ++ r) : d.rest = r := by
  obtain ⟨e', d', h', hd, -⟩ := Expression.readsBack he hr c hc
  rw [(h.unique h').2, hd]

theorem ReadsMustache.rest_eq {c d : Cursor} {m : Mustache} {r : List Char}
    (h : ReadsMustache c m d) (hm : m.isPrintable = true) (hc : c.rest = m.source ++ r) :
    d.rest = r := by
  obtain ⟨m', d', h', hd, -⟩ := Mustache.readsBack hm c hc
  rw [(h.unique h').2, hd]

/-- What can be read does not begin with a blank when it is written. -/
theorem ends_isSpace_of_isCanonical {e : Expression}
    (h : Everywhere Node.isCanonical e.nodes) (r : List Char) :
    Ends CharClass.isSpace (e.source ++ r) := by
  cases e with
  | path p =>
      have hp : (Expression.path p).isPrintable = true := Everywhere.singleton_iff.mp h
      exact Expression.ends_isSpace hp r
  | literal l =>
      cases l with
      | string text =>
          rw [Expression.source, Literal.source, Literal.quote]
          split <;> exact ends_cons.mpr (by decide)
      | number value =>
          cases value with
          | finite negative code =>
              exact Expression.ends_isSpace (e := .literal (.number (.finite negative code))) rfl r
          | infinite negative => cases negative <;> exact ends_cons.mpr (by decide)
          | nan => exact ends_cons.mpr (by decide)
      | boolean value => cases value <;> exact ends_cons.mpr (by decide)
      | null => exact ends_cons.mpr (by decide)
      | undefined => exact ends_cons.mpr (by decide)
  | sub call span => exact ends_cons.mpr (by decide)

theorem ReadsCall.ends_isSpace {c d : Cursor} {call : Call} (h : ReadsCall c call d)
    (r : List Char) : Ends CharClass.isSpace (call.source ++ r) := by
  cases h with
  | call _ he _ =>
      rw [Call.source, List.append_assoc, List.append_assoc]
      exact ends_isSpace_of_isCanonical he.canonical.2 _

/-- A number that is written as its numeral is finite. -/
theorem isFinite_of_startsNumeral {value : Binary64} {r : List Char}
    (h : startsNumeral (value.numeral ++ r) = true) : value.isFinite = true := by
  cases value with
  | finite negative code => rfl
  | infinite negative => cases negative <;> cases h
  | nan => cases h

/-- What block parameters after a call begin with. -/
def Introduced (withParams : Bool) (r : List Char) : Prop :=
  withParams = true → r.head? = some ' '

theorem arguments_blank {params : List Expression} {hash : List (String × Expression)}
    {withParams : Bool} {r : List Char} (hr : Introduced withParams r) :
    Introduced (withParams || !hash.isEmpty || !params.isEmpty)
      (paramsSource params ++ (hashSource hash ++ r)) := by
  intro h
  cases params with
  | cons => rfl
  | nil =>
      cases hash with
      | cons => rfl
      | nil => exact hr (by simpa using h)

/-- The text of a word is the word. -/
theorem source_of_isWord {e : Expression} {word : String} (h : e.isWord word = true) :
    e.source = word.toList := by
  cases e with
  | path p =>
      have hp : p.text = word := by simpa [Expression.isWord, Expression.pathText?] using h
      rw [Expression.source, hp]
  | literal l => cases h
  | sub call span => cases h

/-- Where a call did not end, no word `as` stood in front of a blank. -/
theorem not_as_of_endsCall {e : Expression} {more : Bool} {r : List Char}
    (hend : Token.endsCall (e.source ++ r) = false) (hr : Introduced more r) :
    (!(e.isWord "as" && more)) = true := by
  rw [Bool.not_eq_true', Bool.and_eq_false_iff, or_iff_not_imp_right, Bool.not_eq_false]
  intro hmore
  refine Bool.eq_false_iff.mpr fun hword => ?_
  obtain ⟨after, rfl⟩ := List.head?_eq_some_iff.mp (hr hmore)
  have hsource : e.source = Token.paramsOpen := source_of_isWord hword
  rw [hsource] at hend
  simp [Token.endsCall, Token.paramsOpen] at hend

mutual
/-- An expression that is read where its own text stands can be written, and so below for what
else can be read. -/
theorem ReadsExpression.own {c d : Cursor} {e : Expression} : ReadsExpression c e d →
    {r : List Char} → EndsWord r → c.rest = e.source ++ r → e.isPrintable = true
  | .sub _ hi _, r, _, hc => by
      rw [Expression.source, List.cons_append, List.append_assoc] at hc
      have hin := Cursor.rest_skipSpace (Cursor.rest_advance (s := ['(']) hc) (hi.ends_isSpace _)
      exact hi.own .paren nofun hin
  | .string hq hs hsplit, _, _, _ => (ReadsExpression.string hq hs hsplit).canonical.1
  | .numeral hc hn _, r, _, hr => by
      -- what is written for the other numbers is a word
      rw [← hc, hr] at hn
      exact isFinite_of_startsNumeral hn
  | .word hc hn hp, _, _, _ => (word_canonical _ hc hn hp).1
theorem ReadsCall.own {c d : Cursor} {call : Call} : ReadsCall c call d → {withParams : Bool} →
    {r : List Char} → ClosesCall withParams r → Introduced withParams r →
    c.rest = call.source ++ r → call.isPrintable withParams = true
  | @ReadsCall.call _ _ _ callee params hash hend he ha, withParams, r, hr, hp, hc => by
      rw [Call.source, List.append_assoc, List.append_assoc] at hc
      have hends := endsWord_arguments params hash hr.endsWord
      have hcallee := he.own hends hc
      -- the word `as` in front of a blank would have ended the call
      have has := not_as_of_endsCall (hc ▸ hend) (arguments_blank hp)
      obtain ⟨hparams, hhash⟩ := ha.own hr hp (he.rest_eq hcallee hends hc)
      rw [Call.isPrintable, hcallee, Bool.or_right_comm, has, hparams, hhash]
      rfl
theorem ReadsArguments.own {c d : Cursor} {named : Bool} {params : List Expression}
    {hash : List (String × Expression)} : ReadsArguments c named params hash d →
    {withParams : Bool} → {r : List Char} → ClosesCall withParams r → Introduced withParams r →
    c.rest = paramsSource params ++ (hashSource hash ++ r) →
    paramsPrintable params (withParams || !hash.isEmpty) = true ∧ hashPrintable hash = true
  | .done _, _, _, _, _, _ => ⟨rfl, rfl⟩
  | @ReadsArguments.named c _ _ _ name value params hash _ hk he ha, _, r, hr, hp, hc => by
      have hnil := ha.params_eq_nil rfl
      simp only [hnil, paramsSource, hashSource, List.nil_append, List.cons_append,
        List.append_assoc] at hc
      have hkey := isArgumentName_of_argumentName? hk
      have hends := endsWord_hash hash hr.endsWord
      obtain ⟨hspace, -, -⟩ :=
        Token.argumentName?_append (value.source ++ (hashSource hash ++ r)) hkey
      have hrest := Cursor.rest_skipSpace_of_blank hc hspace
      rw [String.toList_ofList] at hrest
      have hin := rest_behindName hrest (ends_isSpace_of_isCanonical he.canonical.2 _)
      have hvalue := he.own hends hin
      obtain ⟨-, hhash⟩ := ha.own hr hp (by rw [he.rest_eq hvalue hends hin, hnil]; rfl)
      rw [hnil, hashPrintable, hkey, hvalue, hhash]
      exact ⟨rfl, rfl⟩
  | @ReadsArguments.positional c _ _ value params hash hend _ he ha, _, r, hr, hp, hc => by
      rw [paramsSource, List.cons_append, List.append_assoc] at hc
      have hrest := Cursor.rest_skipSpace_of_blank hc (ends_isSpace_of_isCanonical he.canonical.2 _)
      have hends := endsWord_arguments params hash hr.endsWord
      have hvalue := he.own hends hrest
      have has := not_as_of_endsCall (hrest ▸ hend) (arguments_blank hp)
      obtain ⟨hparams, hhash⟩ := ha.own hr hp (he.rest_eq hvalue hends hrest)
      rw [paramsPrintable, hvalue, has, hparams]
      exact ⟨rfl, hhash⟩
end

/-! ## Mustaches and block heads -/

theorem ReadsMustache.own {c d : Cursor} {m : Mustache} {r : List Char} (h : ReadsMustache c m d)
    (hc : c.rest = m.source ++ r) : m.isPrintable = true := by
  cases h with
  | mustache _ _ hcall _ =>
      rw [Mustache.source_eq, List.append_assoc, List.append_assoc] at hc
      exact hcall.own (Mustache.closing_closesCall _ r) nofun
        (Cursor.rest_skipSpace (Cursor.rest_advance hc) (hcall.ends_isSpace _))

theorem introduced_behindCall (params : List String) (r : List Char) :
    Introduced (!params.isEmpty) (behindCall params r) := by
  intro h
  cases params with
  | nil => cases h
  | cons => rfl

/-! ## Attributes -/

end Reading

/-- Whether a piece of a value can be written by itself. -/
def AttributePart.isPrintable : AttributePart → Bool
  | .text t => isQuotable t.chars.toList
  | .mustache m => m.isPrintable

/-- Pieces that can stand one behind the other can be written if each of them can. -/
theorem partsPrintable_iff : {parts : List AttributePart} → partsCanonical parts = true →
    (partsPrintable parts = true ↔ ∀ part ∈ parts, part.isPrintable = true)
  | [], _ => by simp [partsPrintable]
  | .mustache m :: parts, h => by
      rw [partsCanonical, Bool.and_eq_true] at h
      rw [partsPrintable, List.forall_mem_cons, Bool.and_eq_true, partsPrintable_iff h.2]
      rfl
  | [.text t], h => by
      simp only [partsCanonical, AttributePart.fitsBefore, Bool.and_eq_true] at h
      simp [partsPrintable, h.1.1.1, AttributePart.isPrintable]
  | .text t :: .mustache m :: parts, h => by
      rw [partsCanonical, Bool.and_eq_true, AttributePart.fitsBefore, Bool.and_eq_true,
        Bool.and_eq_true] at h
      rw [List.forall_mem_cons, ← partsPrintable_iff h.2]
      simp [partsPrintable, h.1.1.1, h.1.2, AttributePart.isPrintable]
  | .text _ :: .text _ :: _, h => by
      simp [partsCanonical, AttributePart.fitsBefore] at h

namespace Reading

/-- The text between a double quote and what ends it can stand between double quotes. -/
theorem frontPart_printable (c : Cursor) :
    ∀ part ∈ frontPart '"' c, part.isPrintable = true := by
  intro part hp
  have hstops := stops_behindText '"' c
  rw [frontPart, textPart] at hp
  split at hp
  · cases hp
  · obtain rfl := List.mem_singleton.mp hp
    rw [AttributePart.isPrintable, String.toList_ofList, isQuotable_iff]
    constructor
    · rw [← Token.occursIn_singleton]
      refine hstops.somewhere_eq_false (Token.persists_isPrefixOf _) fun s hs => ?_
      obtain ⟨after, rfl⟩ := List.isPrefixOf_iff_prefix.mp hs
      rfl
    · exact hstops.somewhere_eq_false (Token.persists_isPrefixOf _)
        fun s => Token.endsPart_of_mustacheOpen '"'

theorem flatMap_frontPart (quote : Char) (c : Cursor) :
    (frontPart quote c).flatMap AttributePart.source = partText quote c.rest := by
  rw [frontPart, textPart]
  split
  case isTrue h => exact h.symm
  case isFalse => simp [AttributePart.source]

theorem rest_eq_partText (quote : Char) (c : Cursor) :
    c.rest = partText quote c.rest ++ (behindText quote c).rest := by
  obtain ⟨rest, hsplit, -⟩ := Token.stops_upTo (Token.endsPart quote) c.rest
  rw [← Token.partText_eq] at hsplit
  rw [behindText, Cursor.rest_advance hsplit]
  exact hsplit

theorem ReadsParts.own {c d : Cursor} {pieces : List AttributePart} {r : List Char}
    (h : ReadsParts '"' c pieces d)
    (hc : c.rest = pieces.flatMap AttributePart.source ++ '"' :: r) :
    ∀ part ∈ pieces, part.isPrintable = true := by
  induction h with
  | close _ => exact frontPart_printable _
  | @mustache c d e first others m pieces _ _ hm _ ih =>
      rw [List.flatMap_append, flatMap_frontPart, List.flatMap_cons, List.append_assoc,
        List.append_assoc] at hc
      have hin := List.append_cancel_left ((rest_eq_partText '"' c).symm.trans hc)
      have hmustache := hm.own hin
      intro part hp
      rcases List.mem_append.mp hp with hp | hp
      · exact frontPart_printable c part hp
      · cases hp with
        | head => exact hmustache
        | tail _ hp => exact ih (hm.rest_eq hmustache hin) part hp

theorem ReadsParts.valueOfParts_own {c d : Cursor} {pieces : List AttributePart} {span : Span}
    {r : List Char} (h : ReadsParts '"' c pieces d)
    (hc : '"' :: c.rest = (valueOfParts span pieces).source ++ r) :
    (valueOfParts span pieces).isPrintable = true := by
  rcases h.valueOfParts_cases span with ⟨hany, heq⟩ | ⟨-, heq⟩ | ⟨t, rfl, heq⟩
  · rw [heq, AttributeValue.source, List.cons_append, List.append_assoc] at hc
    rw [heq, AttributeValue.isPrintable, hany]
    exact (partsPrintable_iff h.canonical.1).mpr (h.own (List.cons.inj hc).2)
  · rw [heq]
    rfl
  · have hin : c.rest = [AttributePart.text t].flatMap AttributePart.source ++ '"' :: r := by
      simpa [heq, AttributeValue.source, AttributePart.source] using hc
    rw [heq]
    exact h.own hin _ (.head _)

theorem ReadsValue.own {c d : Cursor} {v : AttributeValue} {r : List Char}
    (h : ReadsValue c v d) (hc : c.rest = v.source ++ r) : v.isPrintable = true := by
  cases h with
  | mustache _ hm => exact hm.own hc
  | @quoted _ quote others pieces _ hq _ hp =>
      obtain ⟨xs, hx⟩ : ∃ xs, (valueOfParts (d.spanFrom c.offset) pieces).source = '"' :: xs := by
        unfold valueOfParts
        split <;> exact ⟨_, rfl⟩
      obtain rfl : '"' = quote := by
        rw [hq, hx] at hc
        exact (List.cons.inj hc).1.symm
      have hin := Cursor.rest_advance (s := ['"']) hq
      exact hp.valueOfParts_own ((congrArg ('"' :: ·) hin).trans (hq.symm.trans hc))
  | bare _ hno =>
      rw [hc] at hno
      exact absurd (.inl rfl) (hno '"' rfl)

theorem isNamed_of_nodes {a : Attribute} (h : Everywhere Node.isCanonical a.nodes) :
    a.IsNamed := by
  have ha : a.isCanonical = true := (Everywhere.cons_iff.mp h).1
  rw [Attribute.isCanonical, Bool.and_eq_true, Bool.and_eq_true, Bool.not_eq_true'] at ha
  exact ⟨ha.1.1, ha.1.2⟩

/-- A value that is not shown is the empty text. -/
theorem isPrintable_of_not_isShown {v : AttributeValue} (h : v.isShown = false) :
    v.isPrintable = true := by
  cases v with
  | text t =>
      have ht : t.chars = "" := by simpa [AttributeValue.isShown] using h
      rw [AttributeValue.isPrintable, ht]
      rfl
  | mustache m => cases h
  | concat parts => cases h

theorem ReadsAttribute.own {c d : Cursor} {a : Attribute} {r : List Char}
    (h : ReadsAttribute c a d) (hn : a.IsNamed) (hc : c.rest = a.source ++ r) :
    a.isPrintable = true := by
  have hvalue : a.value.isPrintable = true := by
    cases h with
    | @attr _ v _ ht =>
        rw [Attribute.source_eq, c.rest_eq_taken_append fun x => !Token.endsAttributeName x,
          List.append_assoc, String.toList_ofList] at hc
        have hskip := List.append_cancel_left hc
        cases ht with
        | value _ hv =>
            cases hshown : v.isShown with
            | true =>
                rw [hshown, if_pos rfl, List.cons_append] at hskip
                have hbehind : (behindAttributeName c).rest = Token.equals ++ (v.source ++ r) :=
                  Cursor.rest_skipSpace hskip (ends_cons.mpr (by decide))
                exact hv.own
                  (Cursor.rest_skipSpace (Cursor.rest_advance hbehind) (v.ends_isSpace r))
            | false => exact isPrintable_of_not_isShown hshown
        | empty _ => rfl
  rw [Attribute.isPrintable, hn.name, hn.plain, hvalue]
  rfl

/-! ## Opening tags -/

/-- Behind the blanks that its first piece was set off by, the rest of a tag stands at its own
text. -/
theorem ReadsTagBody.own {c d : Cursor} {attributes : List Attribute} {modifiers : List Mustache}
    {selfClosing : Bool} {r : List Char} (h : ReadsTagBody c attributes modifiers selfClosing d)
    (hc : c.skipSpace.rest =
      (bodyText attributes modifiers selfClosing r).dropWhile CharClass.isSpace) :
    attributes.all Attribute.isPrintable = true ∧ modifiers.all Mustache.isPrintable = true := by
  induction h with
  | selfClose _ => exact ⟨rfl, rfl⟩
  | close _ => exact ⟨rfl, rfl⟩
  | @modifier c d e m attributes modifiers selfClosing ho hm hbody ih =>
      cases attributes with
      | nil =>
          rw [dropWhile_bodyText_modifier] at hc
          have hmodifier := hm.own hc
          obtain ⟨-, hmodifiers⟩ :=
            ih (congrArg (List.dropWhile CharClass.isSpace) (hm.rest_eq hmodifier hc))
          rw [List.all_cons, hmodifier, hmodifiers]
          exact ⟨rfl, rfl⟩
      | cons a attributes =>
          -- an attribute would be printed in front of the modifier that was read
          obtain ⟨hattributes, -⟩ := hbody.canonical
          rw [List.flatMap_cons, Everywhere.append_iff] at hattributes
          have hnamed := isNamed_of_nodes hattributes.1
          rw [dropWhile_bodyText_attribute hnamed] at hc
          obtain ⟨-, -, hopen⟩ := Attribute.not_tagEnd hnamed _ _ _ _ hc
          rw [ho] at hopen
          cases hopen
  | @attr c d e a attributes modifiers selfClosing _ _ ho ha hbody ih =>
      have hnamed := isNamed_of_nodes (ha.canonical ho)
      rw [dropWhile_bodyText_attribute hnamed] at hc
      have hattribute := ha.own hnamed hc
      -- an attribute without a value is read together with the blank behind it
      have hnames : ∀ a ∈ attributes, a.IsNamed := fun a ha =>
        isNamed_of_nodes fun n hn => hbody.canonical.1 n (List.mem_flatMap.mpr ⟨a, ha, hn⟩)
      obtain ⟨a', d', ha', hd, -⟩ := Attribute.readsBack hattribute
        (ends_bodyText (by decide) (by decide)) (ends_equals_bodyText hnames _ _ _) hc
      obtain ⟨hattributes, hmodifiers⟩ := ih (by rw [(ha.unique ha').2, hd])
      rw [List.all_cons, hattribute, hattributes]
      exact ⟨rfl, hmodifiers⟩

/-! ## Items -/

theorem ReadsItem.openTag_own {c d : Cursor} {tag : OpeningTag} {r : List Char}
    (h : ReadsItem c (.openTag tag) d)
    (hc : c.rest = openingSource tag.tag tag.attributes tag.modifiers ++
      (tagEnd tag.selfClosing ++ r)) :
    tag.attributes.all Attribute.isPrintable = true ∧
      tag.modifiers.all Mustache.isPrintable = true ∧ d.rest = r := by
  obtain ⟨hattributes, hmodifiers⟩ : tag.attributes.all Attribute.isPrintable = true ∧
      tag.modifiers.all Mustache.isPrintable = true := by
    cases h with
    | openingTag _ ht =>
        cases ht with
        | @tag _ attributes modifiers selfClosing _ hb =>
            have hopen : c.rest = Token.tagOpen ++
                ((c.advance Token.tagOpen.length).taken Token.isTagChar ++
                  bodyText attributes modifiers selfClosing r) := by
              rw [hc]
              simp [openingSource, bodyText]
            have hin := Cursor.rest_advance hopen
            rw [Cursor.rest_eq_taken_append _ Token.isTagChar] at hin
            exact hb.own (congrArg (List.dropWhile CharClass.isSpace)
              (List.append_cancel_left hin))
  obtain ⟨opened, d', h', hd, -⟩ :=
    openTag_readsBack h.openTag_canonical.name hattributes hmodifiers tag.selfClosing hc
  exact ⟨hattributes, hmodifiers, by rw [(h.unique h').2, hd]⟩

theorem ReadsItem.openBlock_own {c d : Cursor} {head : BlockHead} {r : List Char}
    (h : ReadsItem c (.openBlock head) d)
    (hc : c.rest = Token.blockOpen ++ (head.call.source ++ behindCall head.params r)) :
    head.call.isPrintable (!head.params.isEmpty) = true ∧ d.rest = r := by
  have hcall : head.call.isPrintable (!head.params.isEmpty) = true := by
    cases h with
    | openingBlock _ hh _ =>
        cases hh with
        | head hcall _ =>
            exact hcall.own (behindCall_closesCall _ r) (introduced_behindCall _ r)
              (Cursor.rest_skipSpace (Cursor.rest_advance hc) (hcall.ends_isSpace _))
  obtain ⟨call', d', h', hd, -⟩ := openBlock_readsBack hcall h.openBlock_canonical.params c hc
  exact ⟨hcall, by rw [(h.unique h').2, hd]⟩

theorem ReadsItem.rest_closeTag {c d : Cursor} {name : String} {span : Span} {r : List Char}
    (h : ReadsItem c (.closeTag name span) d) (hn : isPrintableTag name = true)
    (hc : c.rest = Token.closingTagOpen ++ (name.toList ++ (Token.tagClose ++ r))) :
    d.rest = r := by
  obtain ⟨span', d', h', hd⟩ := closeTag_readsBack hn hc
  rw [(h.unique h').2, hd]

theorem ReadsItem.rest_closeBlock {c d : Cursor} {name : String} {span : Span} {r : List Char}
    (h : ReadsItem c (.closeBlock name span) d)
    (hn : ∀ x ∈ name.toList, Token.isPathChar x = true)
    (hc : c.rest = Token.blockClose ++ (name.toList ++ (Token.mustacheClose ++ r))) :
    d.rest = r := by
  obtain ⟨span', d', h', hd⟩ := closeBlock_readsBack hn hc
  rw [(h.unique h').2, hd]

/-- Where a bare else mark is written, no chained one is read. -/
theorem ReadsItem.rest_elseMark {c d : Cursor} {chained : Option BlockHead} {span : Span}
    {r : List Char} (h : ReadsItem c (.elseMark chained span) d)
    (hc : c.rest = Token.elseOpen ++ (Token.mustacheClose ++ r)) :
    chained = none ∧ d.rest = r := by
  obtain ⟨span', d', h', hd⟩ := elseMark_readsBack hc
  obtain ⟨hi, rfl⟩ := h.unique h'
  exact ⟨(Item.elseMark.inj hi).1, hd⟩

/-- The word `else` behind two braces is an else mark when a call ends with it. -/
theorem startsElse_of_isWord {call : Call} (h : call.callee.isWord "else" = true) (r : List Char) :
    Token.startsElse (Token.mustacheOpen ++ (call.source ++ (Token.mustacheClose ++ r))) =
      true := by
  obtain ⟨callee, params, hash⟩ := call
  have hsource : callee.source = ['e', 'l', 's', 'e'] := source_of_isWord h
  rw [Call.source, hsource]
  cases params with
  | cons e es => simp [Token.startsElse, Token.elseOpen, Token.mustacheOpen, paramsSource]
  | nil =>
      cases hash with
      | cons argument hash =>
          simp [Token.startsElse, Token.elseOpen, Token.mustacheOpen, paramsSource, hashSource]
      | nil =>
          simp [Token.startsElse, Token.elseOpen, Token.mustacheOpen, Token.mustacheClose,
            paramsSource, hashSource]

theorem Mark.of_else {rest : List Char} (h : Token.startsElse rest = true) :
    Mark.of rest = .elseMark := by
  obtain ⟨after, rfl⟩ := List.isPrefixOf_iff_prefix.mp (Bool.and_eq_true_iff.mp h).1
  rw [Mark.of, if_neg (by simp [Token.closingTagOpen, Token.elseOpen]),
    if_neg (by simp [Token.blockClose, Token.elseOpen]), if_pos h]

theorem ReadsItem.mustache_own {c d : Cursor} {m : Mustache} {r : List Char}
    (hm : Mark.of c.rest = .mustache) (h : ReadsMustache c m d) (hc : c.rest = m.source ++ r) :
    (Statement.mustache m).isPrintable = true := by
  have helse : (m.trusting || !m.call.callee.isWord "else") = true := by
    cases ht : m.trusting with
    | true => rfl
    | false =>
        rw [Bool.false_or, Bool.not_eq_true']
        refine Bool.eq_false_iff.mpr fun hword => ?_
        rw [Mustache.source_eq, ht, List.append_assoc, List.append_assoc] at hc
        have hmark : Mark.of c.rest = .elseMark := by
          rw [hc]
          exact Mark.of_else (startsElse_of_isWord hword r)
        cases hm.symm.trans hmark
  rw [Statement.isPrintable, h.own hc, helse]
  rfl

theorem ReadsItem.leaf_own {c d : Cursor} {s : Statement} {r : List Char}
    (h : ReadsItem c (.leaf s) d) (hc : c.rest = s.source ++ r) :
    s.isPrintable = true ∧ d.rest = r := by
  obtain ⟨hplain, hnodes⟩ := h.leaf_canonical
  have hcomment {comment : Comment} (hs : s = .comment comment) :
      s.isPrintable = true ∧ d.rest = r := by
    subst hs
    have hprintable : comment.isPrintable = true := Everywhere.singleton_iff.mp hnodes
    obtain ⟨s', d', h', hd, -⟩ := Comment.readsBack hprintable c hc
    exact ⟨hprintable, by rw [(h.unique h').2, hd]⟩
  cases h with
  | longRemark _ _ => exact hcomment rfl
  | remark _ _ => exact hcomment rfl
  | comment _ _ => exact hcomment rfl
  | mustache hm h =>
      have hprintable := mustache_own hm h hc
      exact ⟨hprintable, h.rest_eq (Bool.and_eq_true_iff.mp hprintable).1 hc⟩
  | text _ _ =>
      rw [Statement.source, String.toList_ofList] at hc
      exact ⟨hplain, Cursor.rest_advance hc⟩

end Reading

/-! ## The tree -/

/-- A block has the call and the parameters of its head. -/
theorem ReadsBlock.head_eq {name : String} {head : BlockHead} {c d : Cursor} {b : BlockStatement}
    (h : ReadsBlock name head c b d) : b.call = head.call ∧ b.program.params = head.params := by
  cases h <;> exact ⟨rfl, rfl⟩

/-- The text of a block statement behind its head. -/
def BlockStatement.behindHead (b : BlockStatement) (r : List Char) : List Char :=
  statementsSource b.program.body ++ (inverseSource b.inverse ++
    (Token.blockClose ++ (b.call.name.toList ++ (Token.mustacheClose ++ r))))

theorem BlockStatement.source_append (b : BlockStatement) (r : List Char) : b.source ++ r =
    Token.blockOpen ++ (b.call.source ++ behindCall b.program.params (b.behindHead r)) := by
  obtain ⟨call, ⟨body, params⟩, inverse, span⟩ := b
  simp [source, behindCall, behindHead, Call.name]

theorem inverseSource_append (body : List Statement) (r : List Char) :
    inverseSource (some ⟨body, []⟩) ++ r =
      Token.elseOpen ++ (Token.mustacheClose ++ (statementsSource body ++ r)) := by
  simp [inverseSource, blockParamsSource]

theorem OpeningTag.source_whole {tag : OpeningTag} (hw : tag.isWhole = true) (stop : Nat) :
    (tag.close [] stop).source =
      openingSource tag.tag tag.attributes tag.modifiers ++ tagEnd tag.selfClosing := by
  obtain ⟨name, attributes, modifiers, selfClosing, span⟩ := tag
  cases selfClosing with
  | true => rfl
  | false =>
      have hvoid : Element.voidTags.contains name = true := hw
      rw [close, Element.source, if_neg Bool.false_ne_true, if_pos hvoid]
      rfl

theorem OpeningTag.source_element {tag : OpeningTag} (hw : tag.isWhole = false)
    (children : List Statement) (stop : Nat) : (tag.close children stop).source =
      openingSource tag.tag tag.attributes tag.modifiers ++ (tagEnd tag.selfClosing ++
        (statementsSource children ++
          (Token.closingTagOpen ++ (tag.tag.toList ++ Token.tagClose)))) := by
  obtain ⟨name, attributes, modifiers, selfClosing, span⟩ := tag
  obtain ⟨rfl, hvoid⟩ : selfClosing = false ∧ Element.voidTags.contains name = false :=
    Bool.or_eq_false_iff.mp hw
  rw [close, Element.source, if_neg Bool.false_ne_true, if_neg (by rw [hvoid]; decide)]
  simp [tagEnd]

theorem Element.isPrintable_close {tag : OpeningTag} {children : List Statement} {stop : Nat}
    (ht : tag.Canonical) (hw : tag.isWhole = true → children = [])
    (ha : tag.attributes.all Attribute.isPrintable = true)
    (hm : tag.modifiers.all Mustache.isPrintable = true)
    (hc : statementsPrintable children false = true) :
    (tag.close children stop).isPrintable = true := by
  have hchildren : (!tag.isWhole || children.isEmpty) = true := by
    cases hwhole : tag.isWhole with
    | false => rfl
    | true => rw [hw hwhole]; rfl
  rw [OpeningTag.isWhole] at hchildren
  rw [OpeningTag.close, isPrintable, ht.name, ha, hm, hchildren, hc]
  rfl

mutual
/-- Statements that are read where their own text stands can be written, and reading goes on
behind that text. -/
theorem ReadsStatements.own {c d : Cursor} {ss : List Statement} : ReadsStatements c ss d →
    (braceCloses : Bool) → {r : List Char} → (braceCloses = true → d.rest.head? = some '{') →
    c.rest = statementsSource ss ++ r → statementsPrintable ss braceCloses = true ∧ d.rest = r
  | .nil, _, _, _, hc => ⟨rfl, hc⟩
  | @ReadsStatements.leaf _ _ _ s ss hi hs, _, r, hb, hc => by
      rw [statementsSource, List.append_assoc] at hc
      obtain ⟨hprintable, hrest⟩ := hi.leaf_own hc
      obtain ⟨hprintables, hend⟩ := hs.own _ hb hrest
      rw [statementsPrintable, hprintable, ReadsStatements.fitsBefore hi hs hb, hprintables]
      exact ⟨rfl, hend⟩
  | @ReadsStatements.whole _ _ _ tag ss hi hw hs, _, r, hb, hc => by
      rw [statementsSource, List.append_assoc, Statement.source, OpeningTag.source_whole hw,
        List.append_assoc] at hc
      obtain ⟨hattributes, hmodifiers, hrest⟩ := hi.openTag_own hc
      obtain ⟨hprintables, hend⟩ := hs.own _ hb hrest
      rw [statementsPrintable, Statement.isPrintable, Element.isPrintable_close
        hi.openTag_canonical (fun _ => rfl) hattributes hmodifiers rfl, hprintables]
      exact ⟨rfl, hend⟩
  | @ReadsStatements.element _ _ _ _ _ tag span children ss hi hw hch hcl hs, _, r, hb, hc => by
      rw [statementsSource, List.append_assoc, Statement.source, OpeningTag.source_element hw,
        List.append_assoc, List.append_assoc, List.append_assoc, List.append_assoc,
        List.append_assoc] at hc
      obtain ⟨hattributes, hmodifiers, hin⟩ := hi.openTag_own hc
      obtain ⟨hchildren, hclose⟩ := hch.own false nofun hin
      have hrest := hcl.rest_closeTag hi.openTag_canonical.name hclose
      obtain ⟨hprintables, hend⟩ := hs.own _ hb hrest
      rw [statementsPrintable, Statement.isPrintable, Element.isPrintable_close
        hi.openTag_canonical (fun h => absurd (hw.symm.trans h) (by decide)) hattributes hmodifiers
        hchildren, hprintables]
      exact ⟨rfl, hend⟩
  | @ReadsStatements.block _ _ _ _ head b ss hi hbl hs, _, r, hb, hc => by
      obtain ⟨hcall, hparams⟩ := hbl.head_eq
      rw [statementsSource, List.append_assoc, Statement.source, BlockStatement.source_append,
        hcall, hparams] at hc
      obtain ⟨hhead, hin⟩ := hi.openBlock_own hc
      rw [BlockStatement.behindHead, hcall] at hin
      obtain ⟨hprogram, hinverse, hrest⟩ := hbl.own (Call.isPathChar_name hhead) hin
      obtain ⟨hprintables, hend⟩ := hs.own _ hb hrest
      have hprintable : b.isPrintable = true := by
        obtain ⟨call, ⟨body, params⟩, inverse, span⟩ := b
        dsimp only at hcall hparams hprogram hinverse
        rw [BlockStatement.isPrintable, hcall, hparams, hhead, hi.openBlock_canonical.params,
          hprogram, hinverse]
        rfl
      rw [statementsPrintable, Statement.isPrintable, hprintable, hprintables]
      exact ⟨rfl, hend⟩
theorem ReadsBlock.own {name : String} {head : BlockHead} {c d : Cursor} {b : BlockStatement} :
    ReadsBlock name head c b d → {r : List Char} →
    (∀ x ∈ name.toList, Token.isPathChar x = true) →
    c.rest = statementsSource b.program.body ++ (inverseSource b.inverse ++
      (Token.blockClose ++ (name.toList ++ (Token.mustacheClose ++ r)))) →
    statementsPrintable b.program.body true = true ∧ inversePrintable b.inverse = true ∧ d.rest = r
  | .close hp hcl, r, hn, hc => by
      obtain ⟨hprogram, hclose⟩ := hp.own true (fun _ => hcl.closeBlock_head) hc
      exact ⟨hprogram, rfl, hcl.rest_closeBlock hn hclose⟩
  | @ReadsBlock.inverse _ _ _ _ _ _ _ _ inverse _ _ hp he hv hcl, r, hn, hc => by
      obtain ⟨hprogram, helse⟩ := hp.own true (fun _ => he.elseMark_head) hc
      have hin := (he.rest_elseMark (helse.trans (inverseSource_append inverse _))).2
      obtain ⟨hinverse, hclose⟩ := hv.own true (fun _ => hcl.closeBlock_head) hin
      refine ⟨hprogram, ?_, hcl.rest_closeBlock hn hclose⟩
      rw [BlockHead.close, inversePrintable, hinverse]
      rfl
  | @ReadsBlock.chain _ _ _ _ _ _ _ _ _ b hp he _, r, hn, hc => by
      -- a chained block is written behind a bare else mark, so it is not read as one
      obtain ⟨-, helse⟩ := hp.own true (fun _ => he.elseMark_head) hc
      cases (he.rest_elseMark (helse.trans (inverseSource_append [.block b] _))).1
end

/-- What stands at its own text can be written. -/
theorem Template.isPrintable_of_own {t : Template} (h : Template.ofChars t.source = .ok t) :
    t.isPrintable = true := by
  obtain ⟨hparams, d, hread, hd⟩ := ofChars_eq_ok_iff.mp h
  have hbody := (hread.own false nofun (List.append_nil _).symm).1
  rw [isPrintable, hparams, hbody]
  rfl

end Bracework
