/-
Printing — mustaches, block heads and opening tags read back.

The pieces of a tag stand one blank apart, and an attribute without a value
has the reader skip that blank in search of an equals sign.  So a place inside
a tag is described by what stands behind its blanks.
-/
import Bracework.Proofs.Printing.Call
import Mathlib.Data.List.DropRight

namespace Bracework

open Reading

/-! ## Mustaches -/

theorem Mustache.source_eq (m : Mustache) : m.source =
    Mustache.opening m.trusting ++ (m.call.source ++ Mustache.closing m.trusting) := by
  unfold source opening closing
  cases m.trusting <;> simp

theorem Mustache.closing_closesCall {withParams : Bool} (trusting : Bool) (r : List Char) :
    ClosesCall withParams (Mustache.closing trusting ++ r) := by
  cases trusting <;> exact .curly

theorem Mustache.ends_closing (trusting : Bool) (r : List Char) :
    Ends CharClass.isSpace (Mustache.closing trusting ++ r) := by
  cases trusting <;> exact ends_cons.mpr CharClass.isSpace_brace

/-- Two braces and a printed call are not the opening of a trusting mustache. -/
theorem Call.not_trustingOpen {call : Call} {withParams : Bool} {r : List Char}
    (h : call.isPrintable withParams = true) :
    Token.trustingOpen.isPrefixOf (Token.mustacheOpen ++ (call.source ++ r)) = false := by
  obtain ⟨x, others, hs, hx⟩ := call.source_head h
  have hne : '{' ≠ x := (Token.ne_of_class hx (by decide)).symm
  simp [hs, Token.trustingOpen, Token.mustacheOpen, List.isPrefixOf, hne]

theorem Mustache.mustacheOpen_source (m : Mustache) (r : List Char) :
    Token.mustacheOpen.isPrefixOf (m.source ++ r) = true := by
  rw [source_eq]
  cases m.trusting <;> simp [opening, Token.mustacheOpen, Token.trustingOpen, List.isPrefixOf]

theorem Mustache.readsBack {m : Mustache} {r : List Char} (h : m.isPrintable = true) :
    ReadsBack ReadsMustache Mustache.eraseSpans m m.source r := by
  intro c hc
  rw [source_eq, List.append_assoc, List.append_assoc] at hc
  have htrust : c.startsWith Token.trustingOpen = m.trusting := by
    cases ht : m.trusting with
    | true =>
        rw [ht] at hc
        exact Cursor.startsWith_of_rest hc
    | false =>
        rw [ht] at hc
        rw [Cursor.startsWith, hc]
        exact Call.not_trustingOpen h
  have hin := Cursor.rest_skipSpace (Cursor.rest_advance hc) (Call.ends_isSpace h _)
  obtain ⟨call', d, hread, hd, he⟩ := m.call.readsBack h
    (closing_closesCall m.trusting r) _ hin
  have hclose := Cursor.rest_skipSpace (hd.trans (dropWhile_of_ends (ends_closing _ _)))
    (ends_closing _ _)
  refine ⟨_, _, .mustache htrust (Cursor.startsWith_of_rest hc) hread
    (Cursor.startsWith_of_rest hclose), Cursor.rest_advance hclose, ?_⟩
  rw [eraseSpans, eraseSpans, he]

/-! ## Block heads -/

/-- The text of block parameters up to and with their closing bar. -/
def namesText (names : List String) (r : List Char) : List Char :=
  separated [' '] (names.map String.toList) ++ '|' :: r

theorem isArgumentName_head {name : String} (h : isArgumentName name = true) :
    ∃ x xs, name.toList = x :: xs ∧ Token.isNameChar x = true := by
  obtain ⟨hne, hall⟩ := isArgumentName_iff.mp h
  obtain ⟨x, xs, hx⟩ := List.exists_cons_of_ne_nil hne
  exact ⟨x, xs, hx, hall x (by simp [hx])⟩

theorem ends_namesText {names : List String} (h : names.all isArgumentName = true)
    (r : List Char) : Ends CharClass.isSpace (namesText names r) := by
  cases names with
  | nil => exact ends_cons.mpr (by decide)
  | cons name names =>
      rw [List.all_cons, Bool.and_eq_true] at h
      obtain ⟨x, xs, hx, hname⟩ := isArgumentName_head h.1
      have hspace := Token.isSpace_of_isPathChar (Token.isPathChar_of_isNameChar hname)
      cases names <;> simpa [namesText, separated, hx] using hspace

theorem namesText_cons (name : String) {names : List String} (h : names.all isArgumentName = true)
    (r : List Char) : ∃ after, namesText (name :: names) r = name.toList ++ after ∧
      Ends Token.isNameChar after ∧ after.dropWhile CharClass.isSpace = namesText names r := by
  cases names with
  | nil =>
      exact ⟨'|' :: r, rfl, ends_cons.mpr (by decide), dropWhile_of_ends (ends_namesText h r)⟩
  | cons next names =>
      refine ⟨' ' :: namesText (next :: names) r, ?_, ends_cons.mpr (by decide), ?_⟩
      · simp [namesText, separated]
      · rw [List.dropWhile_cons, if_pos CharClass.isSpace_blank]
        exact dropWhile_of_ends (ends_namesText h r)

/-- Block parameters read back, the first of them behind blanks or not. -/
theorem namesReadBack : {names : List String} → names.all isArgumentName = true → {r : List Char} →
    (c : Cursor) → c.skipSpace.rest = namesText names r → ∃ d, ReadsNames c names d ∧ d.rest = r
  | [], _, r, c, hc =>
      have hbar : c.skipSpace.rest = ['|'] ++ r := hc
      ⟨_, .bar (Cursor.startsWith_of_rest hbar), Cursor.rest_advance hbar⟩
  | name :: names, h, r, c, hc => by
      rw [List.all_cons, Bool.and_eq_true] at h
      obtain ⟨hne, hall⟩ := isArgumentName_iff.mp h.1
      obtain ⟨x, xs, hx, hname⟩ := isArgumentName_head h.1
      obtain ⟨after, htext, hend, hnext⟩ := namesText_cons name h.2 r
      rw [htext] at hc
      have htaken := Cursor.taken_of_rest hc hall hend
      have hskip := Cursor.rest_skip hc hall hend
      have hrest : (c.skipSpace.skip Token.isNameChar).skipSpace.rest = namesText names r :=
        (congrArg (List.dropWhile CharClass.isSpace) hskip).trans hnext
      obtain ⟨d, hread, hd⟩ := namesReadBack h.2 (c.skipSpace.skip Token.isNameChar) hrest
      have hbar : c.skipSpace.startsWith Token.paramsBar = false :=
        Cursor.not_startsWith_of_head (hc.trans (by rw [hx]; rfl))
          (Token.ne_of_class hname (by decide))
      have hstep := ReadsNames.name hbar (htaken ▸ hne) hread
      rw [htaken, String.ofList_toList] at hstep
      exact ⟨d, hstep, hd⟩

/-- What stands behind the call of a block head. -/
def behindCall (params : List String) (r : List Char) : List Char :=
  blockParamsSource params ++ (Token.mustacheClose ++ r)

theorem behindCall_closesCall (params : List String) (r : List Char) :
    ClosesCall (!params.isEmpty) (behindCall params r) := by
  cases params with
  | nil => exact .curly
  | cons => exact .params

theorem blockParamsReadBack {params : List String} {r : List Char}
    (h : params.all isArgumentName = true) (c : Cursor)
    (hc : c.rest = (behindCall params r).dropWhile CharClass.isSpace) :
    ∃ d, ReadsBlockParams c.skipSpace params d ∧ d.rest = Token.mustacheClose ++ r := by
  have hclose : Ends CharClass.isSpace (Token.mustacheClose ++ r) :=
    ends_cons.mpr CharClass.isSpace_brace
  cases params with
  | nil =>
      have hrest : c.rest = Token.mustacheClose ++ r := hc.trans (dropWhile_of_ends hclose)
      rw [Cursor.skipSpace_of_ends (hrest ▸ hclose)]
      exact ⟨c, .none (Cursor.not_startsWith_of_head hrest (by decide)), hrest⟩
  | cons name names =>
      have ha : Ends CharClass.isSpace (Token.paramsOpen ++ ' ' :: '|' ::
          namesText (name :: names) (Token.mustacheClose ++ r)) := ends_cons.mpr (by decide)
      have hrest : c.rest = Token.paramsOpen ++ ' ' :: '|' ::
          namesText (name :: names) (Token.mustacheClose ++ r) := by
        rw [hc, ← dropWhile_of_ends ha]
        simp [behindCall, blockParamsSource, namesText, Token.paramsOpen, List.dropWhile_cons]
      rw [Cursor.skipSpace_of_ends (hrest ▸ ha)]
      have hbar : (c.advance Token.paramsOpen.length).skipSpace.rest = Token.paramsBar ++
          namesText (name :: names) (Token.mustacheClose ++ r) :=
        Cursor.rest_skipSpace_of_blank (Cursor.rest_advance hrest) (ends_cons.mpr (by decide))
      obtain ⟨d, hread, hd⟩ := namesReadBack h _
        (Cursor.rest_skipSpace (Cursor.rest_advance hbar) (ends_namesText h _))
      exact ⟨d.skipSpace, .some (Cursor.startsWith_of_rest hrest)
        (Cursor.startsWith_of_rest hbar) hread, Cursor.rest_skipSpace hd hclose⟩

theorem blockHeadReadsBack {call : Call} {params : List String} {r : List Char}
    (h : call.isPrintable (!params.isEmpty) = true) (hp : params.all isArgumentName = true)
    (start : Nat) (c : Cursor) (hc : c.rest = call.source ++ behindCall params r) :
    ∃ call' d, ReadsBlockHead c start ⟨call', params, start⟩ d ∧
      d.rest = Token.mustacheClose ++ r ∧ call'.eraseSpans = call.eraseSpans := by
  obtain ⟨call', d, hread, hd, he⟩ := call.readsBack h (behindCall_closesCall params r) c hc
  obtain ⟨d', hparams, hd'⟩ := blockParamsReadBack hp d hd
  exact ⟨call', d', .head hread hparams, hd', he⟩

/-! ## Attribute values -/

theorem Token.endsWithBrace_iff {text : List Char} :
    endsWithBrace text = true ↔ text.getLast? = some '{' := by
  rw [endsWithBrace, beq_iff_eq]

theorem Token.endsWithBrace_cons {x : Char} {text : List Char} (h : endsWithBrace text = true) :
    endsWithBrace (x :: text) = true := by
  rw [endsWithBrace_iff] at h ⊢
  cases text with
  | nil => cases h
  | cons y text => rwa [List.getLast?_cons_cons]

/-- The text of a piece stops at a quote or a mustache behind it, if no brace runs into one. -/
theorem partText_append {text r : List Char} (hq : '"' ∉ text)
    (hm : Token.occursIn Token.mustacheOpen text = false) (hr : partText '"' r = [])
    (hb : Token.endsWithBrace text = true → r.head? ≠ some '{') :
    partText '"' (text ++ r) = text := by
  induction text with
  | nil => exact hr
  | cons x text ih =>
      rw [List.mem_cons, not_or] at hq
      rw [Token.occursIn, Token.somewhere, Bool.or_eq_false_iff] at hm
      have hmark : Token.mustacheOpen.isPrefixOf (x :: (text ++ r)) = false :=
        Token.mustacheOpen_append (by simp) hm.1 hb
      have hbrace : Token.endsWithBrace text = true → r.head? ≠ some '{' :=
        fun ht => hb (Token.endsWithBrace_cons ht)
      rw [List.cons_append, partText, if_neg (by simp [hmark, Ne.symm hq.1]), ih hq.2 hm.2 hbrace]

theorem partText_quote (r : List Char) : partText '"' ('"' :: r) = [] := by
  simp [partText]

theorem partText_mustache (m : Mustache) (r : List Char) : partText '"' (m.source ++ r) = [] := by
  have h (cs : List Char) : partText '"' ('{' :: '{' :: cs) = [] := by
    simp [partText, Token.mustacheOpen]
  rw [Mustache.source_eq]
  cases m.trusting <;> exact h _

theorem frontPart_of_rest {c : Cursor} {text r : List Char} (hc : c.rest = text ++ r)
    (ht : partText '"' (text ++ r) = text) :
    (behindText '"' c).rest = r ∧ ∃ span, frontPart '"' c = textPart text span := by
  rw [behindText, frontPart, hc, ht]
  exact ⟨Cursor.rest_advance hc, _, rfl⟩

theorem isQuotable_iff {text : List Char} : isQuotable text = true ↔
    '"' ∉ text ∧ Token.occursIn Token.mustacheOpen text = false := by
  simp [isQuotable]

/-- A text in front of the closing quote. -/
theorem readsParts_close (text : List Char) {c : Cursor} {r : List Char}
    (h : isQuotable text = true) (hc : c.rest = text ++ '"' :: r) :
    ∃ span d, ReadsParts '"' c (textPart text span) d ∧ d.rest = r := by
  obtain ⟨hq, hm⟩ := isQuotable_iff.mp h
  have ht := partText_append hq hm (partText_quote r) (by simp)
  obtain ⟨hrest, span, hfront⟩ := frontPart_of_rest hc ht
  have hread : ReadsParts '"' c _ _ := .close hrest
  rw [hfront] at hread
  exact ⟨span, _, hread, Cursor.rest_advance (s := ['"']) hrest⟩

/-- A text in front of a mustache. -/
theorem readsParts_mustache (text : List Char) {c : Cursor} {r : List Char} {m : Mustache}
    (h : isQuotable text = true) (hb : Token.endsWithBrace text = false)
    (hm : m.isPrintable = true) (hc : c.rest = text ++ (m.source ++ r)) :
    ∃ span m' d, d.rest = r ∧ m'.eraseSpans = m.eraseSpans ∧
      ∀ {pieces e}, ReadsParts '"' d pieces e →
        ReadsParts '"' c (textPart text span ++ .mustache m' :: pieces) e := by
  obtain ⟨hq, hmark⟩ := isQuotable_iff.mp h
  have ht := partText_append hq hmark (partText_mustache m r) (by simp [hb])
  obtain ⟨hrest, span, hfront⟩ := frontPart_of_rest hc ht
  obtain ⟨m', d, hread, hd, he⟩ := Mustache.readsBack hm _ hrest
  obtain ⟨x, xs, hx, hne⟩ : ∃ x xs, m.source ++ r = x :: xs ∧ x ≠ '"' := by
    rw [Mustache.source_eq]
    cases m.trusting <;> exact ⟨_, _, rfl, by decide⟩
  refine ⟨span, m', d, hd, he, fun hp => ?_⟩
  rw [← hfront]
  exact .mustache (hrest.trans hx) hne hread hp

theorem textPart_chars {t : Text} (h : (!t.chars.isEmpty) = true) (span : Span) :
    textPart t.chars.toList span = [.text ⟨t.chars, span⟩] := by
  rw [textPart, if_neg (by simpa using h), String.ofList_toList]

theorem partsReadBack : (parts : List AttributePart) → partsPrintable parts = true →
    {r : List Char} → (c : Cursor) → c.rest = parts.flatMap AttributePart.source ++ '"' :: r →
    ∃ pieces d, ReadsParts '"' c pieces d ∧ d.rest = r ∧
      pieces.map AttributePart.eraseSpans = parts.map AttributePart.eraseSpans
  | [], _, r, c, hc => by
      obtain ⟨span, d, hread, hd⟩ := readsParts_close [] rfl hc
      exact ⟨_, d, hread, hd, rfl⟩
  | .mustache m :: parts, h, r, c, hc => by
      simp only [partsPrintable, Bool.and_eq_true] at h
      rw [List.flatMap_cons, List.append_assoc] at hc
      obtain ⟨span, m', d, hd, he, hstep⟩ := readsParts_mustache [] rfl rfl h.1 hc
      obtain ⟨pieces, e, hread, hrest, heq⟩ := partsReadBack parts h.2 d hd
      refine ⟨_, e, hstep hread, hrest, ?_⟩
      simp [textPart, AttributePart.eraseSpans, he, heq]
  | [.text t], h, r, c, hc => by
      simp only [partsPrintable, Bool.and_eq_true, and_true] at h
      rw [List.flatMap_cons, List.flatMap_nil, List.append_nil] at hc
      obtain ⟨span, d, hread, hd⟩ := readsParts_close _ h.2 hc
      rw [textPart_chars h.1] at hread
      exact ⟨_, d, hread, hd, rfl⟩
  | .text t :: .mustache m :: parts, h, r, c, hc => by
      simp only [partsPrintable, Bool.and_eq_true, Bool.not_eq_true'] at h
      obtain ⟨⟨⟨hne, hq⟩, hb⟩, hm, hparts⟩ := h
      rw [List.flatMap_cons, List.flatMap_cons, List.append_assoc, List.append_assoc] at hc
      obtain ⟨span, m', d, hd, he, hstep⟩ := readsParts_mustache _ hq hb hm hc
      obtain ⟨pieces, e, hread, hrest, heq⟩ := partsReadBack parts hparts d hd
      refine ⟨_, e, hstep hread, hrest, ?_⟩
      rw [textPart_chars (by simp [hne])]
      simp [AttributePart.eraseSpans, Text.eraseSpan, he, heq]
  | .text _ :: .text _ :: _, h, _, _, _ => by
      simp [partsPrintable] at h

theorem any_isMustache_of_erase {pieces parts : List AttributePart}
    (h : pieces.map AttributePart.eraseSpans = parts.map AttributePart.eraseSpans) :
    pieces.any AttributePart.isMustache = parts.any AttributePart.isMustache := by
  have he : AttributePart.isMustache ∘ AttributePart.eraseSpans = AttributePart.isMustache := by
    funext p
    cases p <;> rfl
  rw [← he, ← List.any_map, h, List.any_map]

theorem Reading.valueOfParts_of_mustache {pieces : List AttributePart} (span : Span)
    (h : pieces.any AttributePart.isMustache = true) :
    valueOfParts span pieces = .concat pieces := by
  match pieces with
  | [.text t] => simp [AttributePart.isMustache] at h
  | .text _ :: _ :: _ => rfl
  | .mustache _ :: _ => rfl

/-- The text of an attribute value that is shown, behind its equals sign. -/
def AttributeValue.source : AttributeValue → List Char
  | .text t => '"' :: (t.chars.toList ++ ['"'])
  | .mustache m => m.source
  | .concat parts => '"' :: (parts.flatMap AttributePart.source ++ ['"'])

/-- Whether an attribute value is shown: only an empty text is not. -/
def AttributeValue.isShown : AttributeValue → Bool
  | .text t => !t.chars.isEmpty
  | .mustache _ => true
  | .concat _ => true

theorem AttributeValue.readsBack_quoted {c : Cursor} {parts : List AttributePart} {r : List Char}
    (h : partsPrintable parts = true)
    (hc : c.rest = '"' :: (parts.flatMap AttributePart.source ++ '"' :: r)) :
    ∃ pieces span d, ReadsValue c (valueOfParts span pieces) d ∧ d.rest = r ∧
      pieces.map AttributePart.eraseSpans = parts.map AttributePart.eraseSpans := by
  obtain ⟨pieces, d, hread, hd, he⟩ :=
    partsReadBack parts h _ (Cursor.rest_advance (s := ['"']) hc)
  have hopen : c.startsWith Token.mustacheOpen = false :=
    Cursor.not_startsWith_of_head hc (by decide)
  exact ⟨pieces, _, d, .quoted hopen hc (.inl rfl) hread, hd, he⟩

theorem AttributeValue.readsBack {v : AttributeValue} {r : List Char} (h : v.isPrintable = true)
    (hv : v.isShown = true) : ReadsBack ReadsValue AttributeValue.eraseSpans v v.source r := by
  intro c hc
  cases v with
  | text t =>
      have hparts : partsPrintable [.text t] = true := by
        simp only [partsPrintable, Bool.and_eq_true, and_true]
        exact ⟨hv, h⟩
      obtain ⟨pieces, span, d, hread, hd, he⟩ := readsBack_quoted hparts (r := r) (by
        simpa [source, AttributePart.source] using hc)
      match pieces with
      | [.text t'] =>
          refine ⟨_, d, hread, hd, ?_⟩
          simpa [valueOfParts, eraseSpans, AttributePart.eraseSpans] using he
      | [.mustache m] => simp [AttributePart.eraseSpans] at he
      | _ :: _ :: _ => simp at he
      | [] => simp at he
  | mustache m =>
      have hopen : c.startsWith Token.mustacheOpen = true := by
        rw [Cursor.startsWith, hc]
        exact Mustache.mustacheOpen_source m r
      obtain ⟨m', d, hread, hd, he⟩ := Mustache.readsBack h c hc
      refine ⟨.mustache m', d, .mustache hopen hread, hd, ?_⟩
      rw [eraseSpans, eraseSpans, he]
  | concat parts =>
      rw [isPrintable, Bool.and_eq_true] at h
      obtain ⟨pieces, span, d, hread, hd, he⟩ := readsBack_quoted h.2 (r := r) (by
        simpa [source] using hc)
      rw [valueOfParts_of_mustache _ ((any_isMustache_of_erase he).trans h.1)] at hread
      refine ⟨_, d, hread, hd, ?_⟩
      rw [eraseSpans, eraseSpans, he]

/-! ## Attributes -/

theorem Attribute.source_eq (a : Attribute) : a.source =
    a.name.toList ++ if a.value.isShown then '=' :: a.value.source else [] := by
  unfold source
  cases hv : a.value with
  | text t =>
      cases ht : t.chars.isEmpty <;> simp [AttributeValue.isShown, AttributeValue.source, ht]
  | mustache m => rfl
  | concat parts => rfl

theorem isAttributeName_iff {name : String} : isAttributeName name = true ↔
    name.toList ≠ [] ∧ ∀ x ∈ name.toList, (!Token.endsAttributeName x) = true := by
  simp [isAttributeName]

theorem AttributeValue.ends_isSpace (v : AttributeValue) (r : List Char) :
    Ends CharClass.isSpace (v.source ++ r) := by
  cases v with
  | mustache m =>
      rw [source, Mustache.source_eq]
      cases m.trusting <;> exact ends_cons.mpr (by decide)
  | _ => exact ends_cons.mpr (by decide)

/-- An attribute reads back; without a value, the blanks behind it are read as well. -/
theorem Attribute.readsBack {a : Attribute} {c : Cursor} {r : List Char} (h : a.isPrintable = true)
    (hr : Ends (fun x => !Token.endsAttributeName x) r)
    (heq : Ends (· == '=') (r.dropWhile CharClass.isSpace)) (hc : c.rest = a.source ++ r) :
    ∃ a' d, ReadsAttribute c a' d ∧ d.skipSpace.rest = r.dropWhile CharClass.isSpace ∧
      a'.eraseSpans = a.eraseSpans := by
  simp only [isPrintable, Bool.and_eq_true] at h
  obtain ⟨⟨hname, -⟩, hvalue⟩ := h
  obtain ⟨hne, hall⟩ := isAttributeName_iff.mp hname
  rw [source_eq, List.append_assoc] at hc
  cases hv : a.value.isShown with
  | true =>
      rw [hv, if_pos rfl, List.cons_append] at hc
      have hend : Ends (fun x => !Token.endsAttributeName x) ('=' :: (a.value.source ++ r)) :=
        ends_cons.mpr (by decide)
      have htaken := Cursor.taken_of_rest hc hall hend
      have hskip := Cursor.rest_skip hc hall hend
      have hbehind : (behindAttributeName c).rest = Token.equals ++ (a.value.source ++ r) :=
        Cursor.rest_skipSpace hskip (ends_cons.mpr (by decide))
      have hin := Cursor.rest_skipSpace (Cursor.rest_advance hbehind) (a.value.ends_isSpace r)
      obtain ⟨v, d, hread, hd, he⟩ := AttributeValue.readsBack hvalue hv _ hin
      refine ⟨_, d, .attr (htaken ▸ hne) (.value (Cursor.startsWith_of_rest hbehind) hread),
        congrArg (List.dropWhile CharClass.isSpace) hd, ?_⟩
      rw [eraseSpans, eraseSpans, htaken, String.ofList_toList, he]
  | false =>
      rw [hv, if_neg (by decide), List.nil_append] at hc
      have htaken := Cursor.taken_of_rest hc hall hr
      have hbehind : (behindAttributeName c).rest = r.dropWhile CharClass.isSpace :=
        congrArg (List.dropWhile CharClass.isSpace) (Cursor.rest_skip hc hall hr)
      have hequals : (behindAttributeName c).startsWith Token.equals = false := by
        cases hd : r.dropWhile CharClass.isSpace with
        | nil => rw [Cursor.startsWith, hbehind, hd]; rfl
        | cons x xs =>
            rw [hd, ends_cons] at heq
            exact Cursor.not_startsWith_of_head (hbehind.trans hd) (beq_eq_false_iff_ne.mp heq)
      refine ⟨_, _, .attr (htaken ▸ hne) (.empty hequals), ?_, ?_⟩
      · have hidem : (r.dropWhile CharClass.isSpace).dropWhile CharClass.isSpace =
            r.dropWhile CharClass.isSpace := List.dropWhile_idempotent ..
        exact (congrArg (List.dropWhile CharClass.isSpace) hbehind).trans hidem
      · obtain ⟨name, value, span⟩ := a
        cases value with
        | text t =>
            have ht : t.chars = "" := by simpa [AttributeValue.isShown] using hv
            rw [eraseSpans, eraseSpans, htaken, String.ofList_toList]
            simp [AttributeValue.eraseSpans, Text.eraseSpan, ht]
        | mustache m => cases hv
        | concat parts => cases hv

/-! ## Opening tags -/

/-- The end of an opening tag. -/
def tagEnd (selfClosing : Bool) : List Char :=
  if selfClosing then ' ' :: Token.selfClose else Token.tagClose

/-- The text of an opening tag behind its name, and what follows. -/
def bodyText (attributes : List Attribute) (modifiers : List Mustache) (selfClosing : Bool)
    (r : List Char) : List Char :=
  attributes.flatMap (fun a => ' ' :: a.source) ++
    (modifiers.flatMap (fun m => ' ' :: m.source) ++ (tagEnd selfClosing ++ r))

/-- The pieces of a tag are set off by a blank, its end by a blank or an angle bracket. -/
theorem bodyText_head (attributes : List Attribute) (modifiers : List Mustache)
    (selfClosing : Bool) (r : List Char) :
    ∃ x xs, bodyText attributes modifiers selfClosing r = x :: xs ∧ (x = ' ' ∨ x = '>') := by
  cases attributes with
  | cons => exact ⟨_, _, rfl, .inl rfl⟩
  | nil =>
      cases modifiers with
      | cons => exact ⟨_, _, rfl, .inl rfl⟩
      | nil => cases selfClosing <;> exact ⟨_, _, rfl, by simp⟩

theorem ends_bodyText {test : Char → Bool} (hb : test ' ' = false) (hc : test '>' = false)
    {attributes : List Attribute} {modifiers : List Mustache} {selfClosing : Bool}
    {r : List Char} : Ends test (bodyText attributes modifiers selfClosing r) := by
  obtain ⟨x, xs, hx, h⟩ := bodyText_head attributes modifiers selfClosing r
  rw [hx, ends_cons]
  rcases h with rfl | rfl
  · exact hb
  · exact hc

/-- The name of an attribute is one, and is not taken for a modifier. -/
structure Attribute.IsNamed (a : Attribute) : Prop where
  name : isAttributeName a.name = true
  plain : Token.mustacheOpen.isPrefixOf a.name.toList = false

theorem Attribute.isNamed_of_isPrintable {a : Attribute} (h : a.isPrintable = true) :
    a.IsNamed := by
  simp only [isPrintable, Bool.and_eq_true, Bool.not_eq_true'] at h
  exact ⟨h.1.1, h.1.2⟩

theorem Attribute.name_head {a : Attribute} (h : a.IsNamed) :
    ∃ x xs, a.name.toList = x :: xs ∧ Token.endsAttributeName x = false := by
  obtain ⟨hne, hall⟩ := isAttributeName_iff.mp h.name
  obtain ⟨x, xs, hx⟩ := List.exists_cons_of_ne_nil hne
  exact ⟨x, xs, hx, by simpa using hall x (by simp [hx])⟩

theorem isSpace_of_endsAttributeName {x : Char} (h : Token.endsAttributeName x = false) :
    CharClass.isSpace x = false := by
  simp only [Token.endsAttributeName, Bool.or_eq_false_iff] at h
  exact h.1.1.1.1.1

/-- The blanks of a tag are the ones between its pieces. -/
theorem dropWhile_bodyText_attribute {a : Attribute} (h : a.IsNamed)
    (attributes : List Attribute) (modifiers : List Mustache) (selfClosing : Bool)
    (r : List Char) :
    (bodyText (a :: attributes) modifiers selfClosing r).dropWhile CharClass.isSpace =
      a.source ++ bodyText attributes modifiers selfClosing r := by
  obtain ⟨x, xs, hx, hend⟩ := Attribute.name_head h
  rw [bodyText, List.flatMap_cons, List.append_assoc, List.cons_append, List.dropWhile_cons,
    if_pos CharClass.isSpace_blank]
  apply dropWhile_of_ends
  rw [Attribute.source_eq, hx]
  exact ends_cons.mpr (isSpace_of_endsAttributeName hend)

theorem dropWhile_bodyText_modifier (m : Mustache) (modifiers : List Mustache)
    (selfClosing : Bool) (r : List Char) :
    (bodyText [] (m :: modifiers) selfClosing r).dropWhile CharClass.isSpace =
      m.source ++ bodyText [] modifiers selfClosing r := by
  rw [bodyText, List.flatMap_nil, List.nil_append, List.flatMap_cons, List.append_assoc,
    List.cons_append, List.dropWhile_cons, if_pos CharClass.isSpace_blank]
  apply dropWhile_of_ends
  rw [Mustache.source_eq]
  cases m.trusting <;> exact ends_cons.mpr (by decide)

theorem dropWhile_bodyText_nil (selfClosing : Bool) (r : List Char) :
    (bodyText [] [] selfClosing r).dropWhile CharClass.isSpace =
      (if selfClosing then Token.selfClose else Token.tagClose) ++ r := by
  cases selfClosing with
  | true =>
      exact (List.dropWhile_cons_of_pos CharClass.isSpace_blank).trans
        (dropWhile_of_ends (ends_cons.mpr (by decide)))
  | false => exact dropWhile_of_ends (ends_cons.mpr CharClass.isSpace_angle)

theorem ends_equals_bodyText {attributes : List Attribute}
    (h : ∀ a ∈ attributes, a.IsNamed) (modifiers : List Mustache)
    (selfClosing : Bool) (r : List Char) :
    Ends (· == '=')
      ((bodyText attributes modifiers selfClosing r).dropWhile CharClass.isSpace) := by
  cases attributes with
  | cons a attributes =>
      have hnamed := h a (.head _)
      obtain ⟨x, xs, hx, hend⟩ := Attribute.name_head hnamed
      rw [dropWhile_bodyText_attribute hnamed, Attribute.source_eq, hx]
      refine ends_cons.mpr (beq_eq_false_iff_ne.mpr ?_)
      rintro rfl
      cases hend
  | nil =>
      cases modifiers with
      | cons m modifiers =>
          rw [dropWhile_bodyText_modifier, Mustache.source_eq]
          cases m.trusting <;> exact ends_cons.mpr (by decide)
      | nil =>
          rw [dropWhile_bodyText_nil]
          cases selfClosing <;> exact ends_cons.mpr (by decide)

/-- A printed attribute begins neither the end of a tag nor a modifier. -/
theorem Attribute.not_tagEnd {a : Attribute} (h : a.IsNamed)
    (attributes : List Attribute) (modifiers : List Mustache) (selfClosing : Bool)
    (r : List Char) {c : Cursor}
    (hc : c.rest = a.source ++ bodyText attributes modifiers selfClosing r) :
    c.startsWith Token.selfClose = false ∧ (∀ x ∈ c.rest.head?, x ≠ '>') ∧
      c.startsWith Token.mustacheOpen = false := by
  obtain ⟨x, xs, hx, hend⟩ := name_head h
  have hplain := h.plain
  rw [source_eq, hx, List.append_assoc] at hc
  rw [hx] at hplain
  have hslash : x ≠ '/' := by
    rintro rfl
    cases hend
  have hclose : x ≠ '>' := by
    rintro rfl
    cases hend
  refine ⟨?_, ?_, ?_⟩
  · exact Cursor.not_startsWith_of_head hc hslash
  · rw [hc]
    intro y hy
    obtain rfl := Option.some.inj hy
    exact hclose
  · rw [Cursor.startsWith, hc]
    cases xs with
    | cons y ys => simpa [Token.mustacheOpen, List.isPrefixOf] using hplain
    | nil =>
        obtain ⟨y, ys, hy, hbrace⟩ : ∃ y ys,
            (if a.value.isShown then '=' :: a.value.source else []) ++
              bodyText attributes modifiers selfClosing r = y :: ys ∧ y ≠ '{' := by
          cases a.value.isShown with
          | true => exact ⟨_, _, rfl, by decide⟩
          | false =>
              obtain ⟨y, ys, hy, hbody⟩ := bodyText_head attributes modifiers selfClosing r
              exact ⟨y, ys, hy, by rcases hbody with rfl | rfl <;> decide⟩
        rw [hy]
        simp [Token.mustacheOpen, List.isPrefixOf, hbrace.symm]

theorem modifiersReadBack : (modifiers : List Mustache) →
    modifiers.all Mustache.isPrintable = true → (selfClosing : Bool) → {r : List Char} →
    (c : Cursor) →
    c.skipSpace.rest = (bodyText [] modifiers selfClosing r).dropWhile CharClass.isSpace →
    ∃ modifiers' d, ReadsTagBody c [] modifiers' selfClosing d ∧ d.rest = r ∧
      modifiers'.map Mustache.eraseSpans = modifiers.map Mustache.eraseSpans
  | [], _, selfClosing, r, c, hc => by
      rw [dropWhile_bodyText_nil] at hc
      cases selfClosing with
      | true =>
          have hrest : c.skipSpace.rest = Token.selfClose ++ r := hc
          exact ⟨[], _, .selfClose (Cursor.startsWith_of_rest hrest), Cursor.rest_advance hrest,
            rfl⟩
      | false =>
          have hrest : c.skipSpace.rest = Token.tagClose ++ r := hc
          exact ⟨[], _, .close hrest, Cursor.rest_advance hrest, rfl⟩
  | m :: modifiers, h, selfClosing, r, c, hc => by
      rw [List.all_cons, Bool.and_eq_true] at h
      rw [dropWhile_bodyText_modifier] at hc
      have hopen : c.skipSpace.startsWith Token.mustacheOpen = true := by
        rw [Cursor.startsWith, hc]
        exact Mustache.mustacheOpen_source m _
      obtain ⟨m', d, hread, hd, he⟩ := Mustache.readsBack h.1 _ hc
      obtain ⟨modifiers', e, hbody, hrest, heq⟩ := modifiersReadBack modifiers h.2 selfClosing d
        (congrArg (List.dropWhile CharClass.isSpace) hd)
      refine ⟨m' :: modifiers', e, .modifier hopen hread hbody, hrest, ?_⟩
      rw [List.map_cons, List.map_cons, he, heq]

theorem tagBodyReadsBack : (attributes : List Attribute) →
    attributes.all Attribute.isPrintable = true → {modifiers : List Mustache} →
    modifiers.all Mustache.isPrintable = true → (selfClosing : Bool) → {r : List Char} →
    (c : Cursor) →
    c.skipSpace.rest = (bodyText attributes modifiers selfClosing r).dropWhile CharClass.isSpace →
    ∃ attributes' modifiers' d, ReadsTagBody c attributes' modifiers' selfClosing d ∧ d.rest = r ∧
      attributes'.map Attribute.eraseSpans = attributes.map Attribute.eraseSpans ∧
      modifiers'.map Mustache.eraseSpans = modifiers.map Mustache.eraseSpans
  | [], _, modifiers, hm, selfClosing, r, c, hc => by
      obtain ⟨modifiers', d, hread, hd, he⟩ := modifiersReadBack modifiers hm selfClosing c hc
      exact ⟨[], modifiers', d, hread, hd, rfl, he⟩
  | a :: attributes, h, modifiers, hm, selfClosing, r, c, hc => by
      rw [List.all_cons, Bool.and_eq_true] at h
      have hnamed := Attribute.isNamed_of_isPrintable h.1
      rw [dropWhile_bodyText_attribute hnamed] at hc
      obtain ⟨hself, hclose, hopen⟩ :=
        Attribute.not_tagEnd hnamed attributes modifiers selfClosing r hc
      have hequals := ends_equals_bodyText (fun a ha => Attribute.isNamed_of_isPrintable
        (List.all_eq_true.mp h.2 a ha)) modifiers selfClosing r
      obtain ⟨a', d, hread, hd, hea⟩ :=
        Attribute.readsBack h.1 (ends_bodyText (by decide) (by decide)) hequals hc
      obtain ⟨attributes', modifiers', e, hbody, he, hattrs, hmods⟩ :=
        tagBodyReadsBack attributes h.2 hm selfClosing d hd
      refine ⟨a' :: attributes', modifiers', e, .attr hself hclose hopen hread hbody, he, ?_,
        hmods⟩
      rw [List.map_cons, List.map_cons, hea, hattrs]

theorem isAlphabetic_of_isAlpha {x : Char} (h : x.isAlpha = true) :
    CharClass.isAlphabetic x = true := by
  obtain ⟨ranges, hranges⟩ : ∃ ranges, CharClass.alphabeticRanges =
      (0x41, 0x5A) :: (0x61, 0x7A) :: ranges := ⟨_, rfl⟩
  have hletter := Token.isAlpha_iff_toNat.mp h
  rw [CharClass.isAlphabetic, hranges]
  simp [CharClass.inRanges]
  omega

theorem isTagChar_of_isAlpha {x : Char} (h : x.isAlpha = true) : Token.isTagChar x = true := by
  simp [Token.isTagChar, CharClass.isAlphanumeric, isAlphabetic_of_isAlpha h]

theorem isPrintableTag_iff {tag : String} : isPrintableTag tag = true ↔
    ∃ x xs, tag.toList = x :: xs ∧ x.isAlpha = true ∧ ∀ y ∈ xs, Token.isTagChar y = true := by
  unfold isPrintableTag
  cases tag.toList <;> simp

theorem isTagChar_of_isPrintableTag {tag : String} (h : isPrintableTag tag = true) :
    ∀ y ∈ tag.toList, Token.isTagChar y = true := by
  obtain ⟨x, xs, hx, halpha, hxs⟩ := isPrintableTag_iff.mp h
  rw [hx]
  intro y hy
  cases hy with
  | head => exact isTagChar_of_isAlpha halpha
  | tail _ hy => exact hxs y hy

theorem openingTagReadsBack {tag : String} {attributes : List Attribute}
    {modifiers : List Mustache} (ht : isPrintableTag tag = true)
    (ha : attributes.all Attribute.isPrintable = true)
    (hm : modifiers.all Mustache.isPrintable = true) (selfClosing : Bool) {r : List Char}
    {c : Cursor}
    (hc : c.rest = openingSource tag attributes modifiers ++ (tagEnd selfClosing ++ r)) :
    ∃ attributes' modifiers' span d,
      ReadsOpeningTag c ⟨tag, attributes', modifiers', selfClosing, span⟩ d ∧ d.rest = r ∧
      attributes'.map Attribute.eraseSpans = attributes.map Attribute.eraseSpans ∧
      modifiers'.map Mustache.eraseSpans = modifiers.map Mustache.eraseSpans := by
  have hall := isTagChar_of_isPrintableTag ht
  have hopen : c.rest = Token.tagOpen ++
      (tag.toList ++ bodyText attributes modifiers selfClosing r) := by
    rw [hc]
    simp [openingSource, bodyText]
  have hin := Cursor.rest_advance hopen
  have hend : Ends Token.isTagChar (bodyText attributes modifiers selfClosing r) :=
    ends_bodyText (by decide) (by decide)
  have htaken := Cursor.taken_of_rest hin hall hend
  have hskip := Cursor.rest_skip hin hall hend
  obtain ⟨attributes', modifiers', d, hbody, hd, hea, hem⟩ :=
    tagBodyReadsBack attributes ha hm selfClosing _
      (congrArg (List.dropWhile CharClass.isSpace) hskip)
  have hread := ReadsOpeningTag.tag (Cursor.startsWith_of_rest hopen) hbody
  rw [htaken, String.ofList_toList] at hread
  exact ⟨attributes', modifiers', _, d, hread, hd, hea, hem⟩

end Bracework
