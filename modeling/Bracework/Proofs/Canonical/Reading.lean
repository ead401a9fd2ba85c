/-
Canonical trees — a tree that was read is canonical.

The induction is on derivations.  What the rules say of single words comes from
where a scan stops; what they say of neighbours comes from the mark that the
reader met behind a text, for it is that mark which decides what the neighbour
can be.
-/
import Bracework.Proofs.Canonical.Rules
import Bracework.Proofs.Reading.Scanning

namespace Bracework

open Reading

/-! ## Words -/

theorem ends_dropWhile (test : Char → Bool) (cs : List Char) : Ends test (cs.dropWhile test) := by
  intro x hx
  have hnot := List.head?_dropWhile_not test cs
  rwa [hx] at hnot

namespace Cursor

theorem rest_eq_taken_append (c : Cursor) (test : Char → Bool) :
    c.rest = c.taken test ++ (c.skip test).rest :=
  List.takeWhile_append_dropWhile.symm

theorem mem_taken {c : Cursor} {test : Char → Bool} {x : Char} (h : x ∈ c.taken test) :
    test x = true :=
  List.mem_takeWhile_imp h

end Cursor

theorem isArgumentName_of_all {name : List Char} (hne : name ≠ [])
    (h : ∀ x ∈ name, Token.isNameChar x = true) : isArgumentName (String.ofList name) = true := by
  rw [isArgumentName_iff, String.toList_ofList]
  exact ⟨hne, h⟩

theorem isArgumentName_of_argumentName? {cs name : List Char}
    (h : Token.argumentName? cs = some name) : isArgumentName (String.ofList name) = true := by
  unfold Token.argumentName? at h
  dsimp only at h
  split at h
  case isTrue hname =>
    obtain rfl := Option.some.inj h
    exact isArgumentName_of_all hname.1 fun x hx => List.mem_takeWhile_imp hx
  case isFalse => cases h

/-- What the head of a block contributes to its node. -/
structure BlockHead.Canonical (head : BlockHead) : Prop where
  call : head.call.isCanonical = true
  nodes : Everywhere Node.isCanonical head.call.nodes
  params : head.params.all isArgumentName = true

namespace Reading

/-! ## Expressions and calls -/

theorem leavesQuote_of_split {quote : Char} {others text after : List Char}
    (hq : quote = '"' ∨ quote = '\'') (hs : splitAtFirst? [quote] others = some (text, after)) :
    Expression.leavesQuote (.literal (.string (String.ofList text))) = true := by
  have hnot : quote ∉ text := Token.occursIn_singleton.mp (occursIn_of_splitAtFirst? hs)
  rw [Expression.leavesQuote, String.toList_ofList]
  rcases hq with rfl | rfl <;> simp [hnot]

/-- The word at a place where no numeral stands is a constant, or a path that can be written. -/
theorem word_canonical {c : Cursor} {first : Char} {others : List Char} (span : Span)
    (hc : c.rest = first :: others) (hn : startsNumeral (first :: others) = false)
    (hf : Token.isPathChar first = true) :
    (Expression.ofWord (c.taken Token.isPathChar) span).isPrintable = true ∧
      (Expression.ofWord (c.taken Token.isPathChar) span).leavesQuote = true ∧
      Everywhere Node.isCanonical (Expression.ofWord (c.taken Token.isPathChar) span).nodes := by
  have hsplit := c.rest_eq_taken_append Token.isPathChar
  have hne : c.taken Token.isPathChar ≠ [] := by
    rw [Cursor.taken, hc, List.takeWhile_cons, if_pos hf]
    exact List.cons_ne_nil _ _
  have hall : ∀ x ∈ c.taken Token.isPathChar, Token.isPathChar x = true :=
    fun x hx => Cursor.mem_taken hx
  have hend : Ends Char.isDigit (c.skip Token.isPathChar).rest := fun x hx => by
    have hpath := ends_dropWhile Token.isPathChar c.rest x hx
    refine Bool.eq_false_iff.mpr fun hdigit => ?_
    rw [Token.isPathChar_of_isNameChar (Token.isNameChar_of_isDigit hdigit)] at hpath
    cases hpath
  have hnum : startsNumeral (c.taken Token.isPathChar) = false := by
    rw [← startsNumeral_append hne hend, ← hsplit, hc, hn]
  by_cases hword : c.taken Token.isPathChar ∈ Literal.words
  · simp only [Literal.words, List.mem_cons, List.not_mem_nil, or_false] at hword
    rcases hword with hword | hword | hword | hword <;> rw [hword] <;>
      exact ⟨rfl, rfl, Everywhere.nil⟩
  · have hpath : Path.isPrintable ⟨String.ofList (c.taken Token.isPathChar), span⟩ = true := by
      rw [Path.isPrintable_iff, String.toList_ofList]
      exact ⟨⟨hne, hall⟩, hnum, hword⟩
    rw [Expression.ofWord_of_not_mem hword]
    exact ⟨hpath, rfl, Everywhere.singleton_iff.mpr hpath⟩

mutual
theorem ReadsExpression.canonical {c d : Cursor} {e : Expression} :
    ReadsExpression c e d → e.leavesQuote = true ∧ Everywhere Node.isCanonical e.nodes
  | .sub _ hi _ => by
      obtain ⟨hcall, hnodes⟩ := hi.canonical
      exact ⟨rfl, Everywhere.cons_iff.mpr ⟨hcall, hnodes⟩⟩
  | .string _ hq hs => ⟨leavesQuote_of_split hq hs, Everywhere.nil⟩
  | .numeral _ _ _ => ⟨rfl, Everywhere.nil⟩
  | .word hc hn hp => (word_canonical _ hc hn hp).2
theorem ReadsCall.canonical {c d : Cursor} {call : Call} :
    ReadsCall c call d → call.isCanonical = true ∧ Everywhere Node.isCanonical call.nodes
  | .call _ he ha => by
      obtain ⟨hquote, hcallee⟩ := he.canonical
      obtain ⟨hparams, hhash, hparamsNodes, hhashNodes⟩ := ha.canonical
      refine ⟨?_, ?_⟩
      · rw [Call.isCanonical, hquote, hparams, hhash]
        rfl
      · rw [Call.nodes, Everywhere.append_iff, Everywhere.append_iff]
        exact ⟨⟨hcallee, hparamsNodes⟩, hhashNodes⟩
theorem ReadsArguments.canonical {c d : Cursor} {named : Bool} {params : List Expression}
    {hash : List (String × Expression)} : ReadsArguments c named params hash d →
      params.all Expression.leavesQuote = true ∧
      (hash.all fun argument => isArgumentName argument.1 && argument.2.leavesQuote) = true ∧
      Everywhere Node.isCanonical (paramsNodes params) ∧
      Everywhere Node.isCanonical (hashNodes hash)
  | .done _ => ⟨rfl, rfl, Everywhere.nil, Everywhere.nil⟩
  | .named _ hk he ha => by
      obtain ⟨hquote, hvalue⟩ := he.canonical
      obtain ⟨hparams, hhash, hparamsNodes, hhashNodes⟩ := ha.canonical
      refine ⟨hparams, ?_, hparamsNodes, ?_⟩
      · rw [List.all_cons, hhash, isArgumentName_of_argumentName? hk, hquote]
        rfl
      · rw [hashNodes, Everywhere.append_iff]
        exact ⟨hvalue, hhashNodes⟩
  | .positional _ _ he ha => by
      obtain ⟨hquote, hvalue⟩ := he.canonical
      obtain ⟨hparams, hhash, hparamsNodes, hhashNodes⟩ := ha.canonical
      refine ⟨?_, hhash, ?_, hhashNodes⟩
      · rw [List.all_cons, hquote, hparams]
        rfl
      · rw [paramsNodes, Everywhere.append_iff]
        exact ⟨hvalue, hparamsNodes⟩
end

/-! ## Mustaches and block heads -/

theorem ReadsMustache.canonical {c d : Cursor} {m : Mustache} (h : ReadsMustache c m d) :
    Everywhere Node.isCanonical m.nodes := by
  cases h with
  | mustache _ _ hc _ => exact Everywhere.cons_iff.mpr hc.canonical

theorem ReadsMustache.brace_head {c d : Cursor} {m : Mustache} (h : ReadsMustache c m d) :
    c.rest.head? = some '{' := by
  cases h with
  | @mustache _ trusting _ _ ho _ _ =>
      obtain ⟨others, hc⟩ : ∃ others, c.rest = '{' :: others := by
        cases trusting <;> exact Cursor.rest_of_startsWith ho
      rw [hc]
      rfl

theorem ReadsNames.canonical {c d : Cursor} {names : List String} (h : ReadsNames c names d) :
    names.all isArgumentName = true := by
  induction h with
  | bar _ => rfl
  | name _ hne _ ih =>
      rw [List.all_cons, ih, isArgumentName_of_all hne fun x hx => Cursor.mem_taken hx]
      rfl

theorem ReadsBlockParams.canonical {c d : Cursor} {names : List String} :
    ReadsBlockParams c names d → names.all isArgumentName = true
  | .some _ _ hn => hn.canonical
  | .none _ => rfl

theorem ReadsBlockHead.canonical {c d : Cursor} {start : Nat} {head : BlockHead} :
    ReadsBlockHead c start head d → head.Canonical
  | .head hc hp => ⟨hc.canonical.1, hc.canonical.2, hp.canonical⟩

/-! ## Attributes -/

/-- The text in front of a piece runs up to the next test of what ends it. -/
theorem stops_behindText (quote : Char) (c : Cursor) :
    Token.Stops (Token.endsPart quote) (partText quote c.rest) (behindText quote c).rest := by
  obtain ⟨rest, hsplit, hstops⟩ := Token.stops_upTo (Token.endsPart quote) c.rest
  rw [← Token.partText_eq] at hsplit hstops
  rwa [behindText, Cursor.rest_advance hsplit]

/-- The text in front of a piece can stand there, and leaves a brace to the piece. -/
theorem frontPart_canonical {quote : Char} {c : Cursor} {parts : List AttributePart}
    (ht : ∀ t ts, parts ≠ .text t :: ts)
    (hm : ∀ m ms, parts = .mustache m :: ms → (behindText quote c).rest.head? = some '{')
    (hp : partsCanonical parts = true) : partsCanonical (frontPart quote c ++ parts) = true := by
  have hstops := stops_behindText quote c
  have hopen := fun s => Token.endsPart_of_mustacheOpen quote (s := s)
  have hnot : Token.occursIn Token.mustacheOpen (partText quote c.rest) = false :=
    hstops.somewhere_eq_false (Token.persists_isPrefixOf _) hopen
  rw [frontPart, textPart]
  split
  case isTrue => exact hp
  case isFalse hne =>
    rw [List.singleton_append, partsCanonical, hp, Bool.and_true]
    cases parts with
    | nil => simpa [AttributePart.fitsBefore, hnot] using hne
    | cons part parts =>
        cases part with
        | text t => exact absurd rfl (ht t parts)
        | mustache m =>
            have hbrace : Token.endsWithBrace (partText quote c.rest) = false :=
              Bool.eq_false_iff.mpr fun hb => hstops.brace_head hopen hb (hm m parts rfl)
            simpa [AttributePart.fitsBefore, hnot, hbrace] using hne

theorem frontPart_nodes (quote : Char) (c : Cursor) :
    Everywhere Node.isCanonical ((frontPart quote c).flatMap AttributePart.nodes) := by
  rw [frontPart, textPart]
  split
  · exact Everywhere.nil
  · exact Everywhere.singleton_iff.mpr rfl

theorem ReadsParts.canonical {quote : Char} {c d : Cursor} {pieces : List AttributePart}
    (h : ReadsParts quote c pieces d) :
    partsCanonical pieces = true ∧
      Everywhere Node.isCanonical (pieces.flatMap AttributePart.nodes) := by
  induction h with
  | @close c _ _ =>
      have hfront : partsCanonical (frontPart quote c ++ []) = true :=
        frontPart_canonical (fun _ _ => nofun) (fun _ _ => nofun) rfl
      rw [List.append_nil] at hfront
      exact ⟨hfront, frontPart_nodes quote c⟩
  | @mustache c _ _ _ _ m pieces _ _ hm _ ih =>
      refine ⟨frontPart_canonical (fun _ _ => nofun) (fun _ _ _ => hm.brace_head) ih.1, ?_⟩
      rw [List.flatMap_append, List.flatMap_cons, Everywhere.append_iff,
        Everywhere.append_iff]
      exact ⟨frontPart_nodes quote c, hm.canonical, ih.2⟩

/-- Between two quotes there is a mustache, or only a text. -/
theorem ReadsParts.isMustache_or {quote : Char} {c d : Cursor} {pieces : List AttributePart}
    (h : ReadsParts quote c pieces d) :
    pieces.any AttributePart.isMustache = true ∨ pieces = frontPart quote c := by
  cases h with
  | close _ => exact .inr rfl
  | mustache _ _ _ _ =>
      rw [List.any_append, List.any_cons]
      exact .inl (by simp [AttributePart.isMustache])

/-- The value in quotes is pieces with a mustache among them, or the one text, if there is one. -/
theorem ReadsParts.valueOfParts_cases {quote : Char} {c d : Cursor} {pieces : List AttributePart}
    (h : ReadsParts quote c pieces d) (span : Span) :
    (pieces.any AttributePart.isMustache = true ∧ valueOfParts span pieces = .concat pieces) ∨
      (pieces = [] ∧ valueOfParts span pieces = .text ⟨"", span⟩) ∨
      ∃ t, pieces = [.text t] ∧ valueOfParts span pieces = .text t := by
  rcases h.isMustache_or with hany | hfront
  · exact .inl ⟨hany, valueOfParts_of_mustache span hany⟩
  · rw [hfront, frontPart, textPart]
    split
    · exact .inr (.inl ⟨rfl, rfl⟩)
    · exact .inr (.inr ⟨_, rfl, rfl⟩)

theorem ReadsParts.valueOfParts_canonical {quote : Char} {c d : Cursor}
    {pieces : List AttributePart} (h : ReadsParts quote c pieces d) (span : Span) :
    (valueOfParts span pieces).isCanonical = true ∧
      Everywhere Node.isCanonical (valueOfParts span pieces).nodes := by
  obtain ⟨hparts, hnodes⟩ := h.canonical
  rcases h.valueOfParts_cases span with ⟨hany, heq⟩ | ⟨-, heq⟩ | ⟨t, -, heq⟩
  · rw [heq, AttributeValue.isCanonical, hany, hparts]
    exact ⟨rfl, hnodes⟩
  · rw [heq]
    exact ⟨rfl, Everywhere.singleton_iff.mpr rfl⟩
  · rw [heq]
    exact ⟨rfl, Everywhere.singleton_iff.mpr rfl⟩

theorem ReadsValue.canonical {c d : Cursor} {v : AttributeValue} (h : ReadsValue c v d) :
    v.isCanonical = true ∧ Everywhere Node.isCanonical v.nodes := by
  cases h with
  | mustache _ hm => exact ⟨rfl, hm.canonical⟩
  | quoted _ _ _ hp => exact hp.valueOfParts_canonical _
  | bare _ _ => exact ⟨rfl, Everywhere.singleton_iff.mpr rfl⟩

theorem ReadsAttributeTail.canonical {c d : Cursor} {v : AttributeValue}
    (h : ReadsAttributeTail c v d) :
    v.isCanonical = true ∧ Everywhere Node.isCanonical v.nodes := by
  cases h with
  | value _ hv => exact hv.canonical
  | empty _ => exact ⟨rfl, Everywhere.singleton_iff.mpr rfl⟩

/-- What stands where no mustache begins is not taken for a modifier. -/
theorem ReadsAttribute.canonical {c d : Cursor} {a : Attribute} (h : ReadsAttribute c a d)
    (ho : c.startsWith Token.mustacheOpen = false) : Everywhere Node.isCanonical a.nodes := by
  cases h with
  | attr hne ht =>
      obtain ⟨hvalue, hnodes⟩ := ht.canonical
      refine Everywhere.cons_iff.mpr ⟨?_, hnodes⟩
      have hname : isAttributeName
          (String.ofList (c.taken fun x => !Token.endsAttributeName x)) = true := by
        rw [isAttributeName_iff, String.toList_ofList]
        exact ⟨hne, fun x hx => Cursor.mem_taken hx⟩
      have hmodifier :
          Token.mustacheOpen.isPrefixOf (c.taken fun x => !Token.endsAttributeName x) = false := by
        refine Bool.eq_false_iff.mpr fun hp => ?_
        have hmore := Token.persists_isPrefixOf _ _
          (c.skip fun x => !Token.endsAttributeName x).rest hp
        rw [← c.rest_eq_taken_append, ← Cursor.startsWith, ho] at hmore
        cases hmore
      show Attribute.isCanonical _ = true
      rw [Attribute.isCanonical, hname, String.toList_ofList, hmodifier, hvalue]
      rfl

/-! ## Opening tags -/

theorem ReadsTagBody.canonical {c d : Cursor} {attributes : List Attribute}
    {modifiers : List Mustache} {selfClosing : Bool}
    (h : ReadsTagBody c attributes modifiers selfClosing d) :
    Everywhere Node.isCanonical (attributes.flatMap Attribute.nodes) ∧
      Everywhere Node.isCanonical (modifiers.flatMap Mustache.nodes) := by
  induction h with
  | selfClose _ => exact ⟨Everywhere.nil, Everywhere.nil⟩
  | close _ => exact ⟨Everywhere.nil, Everywhere.nil⟩
  | modifier _ hm _ ih =>
      rw [List.flatMap_cons]
      exact ⟨ih.1, Everywhere.append_iff.mpr ⟨hm.canonical, ih.2⟩⟩
  | attr _ _ ho ha _ ih =>
      rw [List.flatMap_cons]
      exact ⟨Everywhere.append_iff.mpr ⟨ha.canonical ho, ih.1⟩, ih.2⟩

/-- The mark of an opening tag shows the letter that its name begins with. -/
theorem isPrintableTag_of_mark {c : Cursor} (h : Mark.of c.rest = .openingTag) :
    isPrintableTag
      (String.ofList ((c.advance Token.tagOpen.length).taken Token.isTagChar)) = true := by
  have hfits := Mark.fits_of_eq h
  rw [Mark.fits, Bool.and_eq_true, Bool.not_eq_true'] at hfits
  obtain ⟨htag, hclosing⟩ := hfits
  obtain ⟨x, xs, hc, hx⟩ : ∃ x xs, c.rest = '<' :: x :: xs ∧ (x.isAlpha || x == '/') = true := by
    unfold Token.startsTag at htag
    split at htag
    · exact ⟨_, _, ‹_›, htag⟩
    · cases htag
  have hletter : x.isAlpha = true := by
    have hslash : x ≠ '/' := by
      rintro rfl
      rw [hc] at hclosing
      cases hclosing
    simpa [hslash] using hx
  have hin : (c.advance Token.tagOpen.length).rest = x :: xs := by
    rw [Cursor.advance, hc]
    rfl
  rw [isPrintableTag_iff, String.toList_ofList, Cursor.taken, hin, List.takeWhile_cons,
    if_pos (isTagChar_of_isAlpha hletter)]
  exact ⟨x, _, rfl, hletter, fun y hy => List.mem_takeWhile_imp hy⟩

end Reading

/-- What an opening tag contributes to its node. -/
structure OpeningTag.Canonical (tag : OpeningTag) : Prop where
  name : isPrintableTag tag.tag = true
  attributes : Everywhere Node.isCanonical (tag.attributes.flatMap Attribute.nodes)
  modifiers : Everywhere Node.isCanonical (tag.modifiers.flatMap Mustache.nodes)

namespace Reading

/-! ## Items -/

theorem ReadsItem.openTag_canonical {c d : Cursor} {tag : OpeningTag}
    (h : ReadsItem c (.openTag tag) d) : tag.Canonical := by
  cases h with
  | openingTag hm ht =>
      cases ht with
      | tag _ hb => exact ⟨isPrintableTag_of_mark hm, hb.canonical.1, hb.canonical.2⟩

theorem ReadsItem.openBlock_canonical {c d : Cursor} {head : BlockHead}
    (h : ReadsItem c (.openBlock head) d) : head.Canonical := by
  cases h with
  | openingBlock _ hh _ => exact hh.canonical

theorem ReadsItem.chainedElse_canonical {c d : Cursor} {head : BlockHead} {mark : Span}
    (h : ReadsItem c (.elseMark (some head) mark) d) : head.Canonical := by
  cases h with
  | chainedElse _ _ hh _ => exact hh.canonical

theorem ReadsComment.canonical {html : Bool} {opening closing : List Char} {c d : Cursor}
    {comment : Comment} (h : ReadsComment html opening closing c comment d)
    (before : List Char) (hne : closing ≠ [])
    (hc : (if html then Token.commentClose else Token.longRemarkClose) = before ++ closing) :
    comment.isPrintable = true := by
  cases h with
  | comment _ hs =>
      rw [Comment.isPrintable, String.toList_ofList, Bool.not_eq_true', hc]
      exact Token.occursIn_append_mark before hne (occursIn_of_splitAtFirst? hs)

/-- A text runs up to the next mark. -/
theorem stops_text {c : Cursor} {first : Char} {others : List Char} (hm : Mark.of c.rest = .text)
    (hc : c.rest = first :: others) : Token.Stops Token.startsMark (first :: textTail others)
      (c.advance (first :: textTail others).length).rest := by
  have hmark : Token.startsMark (first :: others) = false := by
    have hfits := Mark.fits_of_eq hm
    rwa [Mark.fits, Bool.not_eq_true', hc] at hfits
  have htext : Token.upTo Token.startsMark c.rest = first :: textTail others := by
    rw [hc, Token.upTo, hmark, Token.textTail_eq]
    rfl
  obtain ⟨rest, hsplit, hstops⟩ := Token.stops_upTo Token.startsMark c.rest
  rw [htext] at hsplit hstops
  rwa [Cursor.rest_advance hsplit]

theorem ReadsItem.leaf_canonical {c d : Cursor} {s : Statement} (h : ReadsItem c (.leaf s) d) :
    s.isPlain = true ∧ Everywhere Node.isCanonical s.nodes := by
  cases h with
  | longRemark _ hc =>
      exact ⟨rfl, Everywhere.singleton_iff.mpr (hc.canonical [] (by decide) rfl)⟩
  | remark _ hc =>
      exact ⟨rfl, Everywhere.singleton_iff.mpr
        (hc.canonical ['-', '-'] (by decide) rfl)⟩
  | mustache _ hm => exact ⟨rfl, hm.canonical⟩
  | comment _ hc =>
      exact ⟨rfl, Everywhere.singleton_iff.mpr (hc.canonical [] (by decide) rfl)⟩
  | text hm hc =>
      refine ⟨?_, Everywhere.singleton_iff.mpr rfl⟩
      have hmarks := (stops_text hm hc).somewhere_eq_false Token.persists_startsMark fun _ h => h
      rw [Statement.isPlain, Text.isPrintable, String.toList_ofList, hmarks]
      simp

/-! ## Neighbours -/

/-- What a statement shows of itself where it stands: a text begins with no mark, and one whose
text begins with a brace stands at one. -/
structure Shows (c : Cursor) (s : Statement) : Prop where
  text : ∀ t, s = .text t → c.rest ≠ [] ∧ Token.startsMark c.rest = false
  brace : s.startsWithBrace = true → c.rest.head? = some '{'

theorem ReadsItem.leaf_shows {c d : Cursor} {s : Statement} (h : ReadsItem c (.leaf s) d) :
    Shows c s := by
  cases h with
  | longRemark hm _ => exact ⟨fun _ => nofun, fun _ => Mark.head_of_isCurly hm rfl⟩
  | remark hm _ => exact ⟨fun _ => nofun, fun _ => Mark.head_of_isCurly hm rfl⟩
  | mustache hm _ => exact ⟨fun _ => nofun, fun _ => Mark.head_of_isCurly hm rfl⟩
  | comment _ hc =>
      refine ⟨fun _ => nofun, fun hb => ?_⟩
      cases hc
      cases hb
  | text hm hc =>
      have hfits := Mark.fits_of_eq hm
      rw [Mark.fits, Bool.not_eq_true'] at hfits
      refine ⟨fun _ _ => ⟨hc ▸ List.cons_ne_nil _ _, hfits⟩, fun hb => ?_⟩
      cases hb

theorem ReadsItem.openBlock_head {c d : Cursor} {head : BlockHead}
    (h : ReadsItem c (.openBlock head) d) : c.rest.head? = some '{' := by
  cases h with
  | openingBlock hm _ _ => exact Mark.head_of_isCurly hm rfl

theorem ReadsItem.closeBlock_head {c d : Cursor} {name : String} {span : Span}
    (h : ReadsItem c (.closeBlock name span) d) : c.rest.head? = some '{' := by
  cases h with
  | closingBlock hm _ _ _ => exact Mark.head_of_isCurly hm rfl

theorem ReadsItem.elseMark_head {c d : Cursor} {chained : Option BlockHead} {span : Span}
    (h : ReadsItem c (.elseMark chained span) d) : c.rest.head? = some '{' := by
  cases h with
  | bareElse hm _ => exact Mark.head_of_isCurly hm rfl
  | chainedElse hm _ _ _ => exact Mark.head_of_isCurly hm rfl

end Reading

theorem ReadsStatements.shows {c d : Cursor} {s : Statement} {ss : List Statement}
    (h : ReadsStatements c (s :: ss) d) : Shows c s := by
  cases h with
  | leaf hi _ => exact hi.leaf_shows
  | whole _ _ _ => exact ⟨fun _ => nofun, nofun⟩
  | element _ _ _ _ _ => exact ⟨fun _ => nofun, nofun⟩
  | block hi _ _ => exact ⟨fun _ => nofun, fun _ => hi.openBlock_head⟩

/-- A statement fits before those that stand behind it: a text ended where the next one begins,
or where the list is closed. -/
theorem ReadsStatements.fitsBefore {c d e : Cursor} {s : Statement} {ss : List Statement}
    {braceCloses : Bool} (hi : ReadsItem c (.leaf s) d) (hs : ReadsStatements d ss e)
    (hb : braceCloses = true → e.rest.head? = some '{') : s.fitsBefore braceCloses ss = true := by
  cases hi with
  | @text first others hm hc =>
      have hstops := stops_text hm hc
      have hbrace := hstops.brace_head fun _ => Token.startsMark_of_mustacheOpen
      cases ss with
      | nil =>
          cases hs
          rw [Statement.fitsBefore, String.toList_ofList, Bool.not_eq_true']
          refine Bool.eq_false_iff.mpr fun h => ?_
          rw [Bool.and_eq_true] at h
          exact hbrace h.2 (hb h.1)
      | cons next ss =>
          have hshows := hs.shows
          have hnt : ∀ t, next ≠ .text t := fun t ht => by
            obtain ⟨hne, hmark⟩ := hshows.text t ht
            rw [hstops.behind.resolve_left hne] at hmark
            cases hmark
          have hfits : (next.startsWithBrace &&
              Token.endsWithBrace (first :: textTail others)) = false := by
            refine Bool.eq_false_iff.mpr fun h => ?_
            rw [Bool.and_eq_true] at h
            exact hbrace h.2 (hshows.brace h.1)
          cases next with
          | text t => exact absurd rfl (hnt t)
          | _ =>
              simpa only [Statement.fitsBefore, String.toList_ofList, Bool.not_eq_true'] using hfits
  | _ => rfl

/-! ## The tree -/

/-- The nodes of an element are canonical if its tag and its content are. -/
theorem element_canonical {tag : OpeningTag} {children : List Statement} (stop : Nat)
    (ht : tag.Canonical) (hw : tag.isWhole = true → children = [])
    (hc : bodyCanonical false children = true ∧
      Everywhere Node.isCanonical (statementsNodes children)) :
    Everywhere Node.isCanonical (tag.close children stop).nodes := by
  refine Everywhere.cons_iff.mpr ⟨?_, ?_⟩
  · have hchildren : (!tag.isWhole || children.isEmpty) = true := by
      cases hwhole : tag.isWhole with
      | false => rfl
      | true => rw [hw hwhole]; rfl
    exact Bool.and_eq_true_iff.mpr ⟨Bool.and_eq_true_iff.mpr ⟨ht.name, hchildren⟩, hc.1⟩
  · exact Everywhere.append_iff.mpr
      ⟨Everywhere.append_iff.mpr ⟨ht.attributes, ht.modifiers⟩, hc.2⟩

/-- The nodes of a block are canonical if its head, its program and its inverse are. -/
theorem block_canonical {head : BlockHead} {program : List Statement} {inverse : Option Block}
    {stop : Nat} (hh : head.Canonical)
    (hp : bodyCanonical true program = true ∧ Everywhere Node.isCanonical (statementsNodes program))
    (hi : inverseCanonical inverse = true)
    (hn : Everywhere Node.isCanonical (inverseNodes inverse)) :
    Everywhere Node.isCanonical (head.close program inverse stop).nodes := by
  refine Everywhere.cons_iff.mpr ⟨?_, ?_⟩
  · exact Bool.and_eq_true_iff.mpr ⟨hh.call, hi⟩
  · have hprogram : Everywhere Node.isCanonical (Block.nodes ⟨program, head.params⟩) :=
      Everywhere.cons_iff.mpr ⟨Bool.and_eq_true_iff.mpr ⟨hh.params, hp.1⟩, hp.2⟩
    exact Everywhere.append_iff.mpr
      ⟨Everywhere.append_iff.mpr ⟨hh.nodes, hprogram⟩, hn⟩

mutual
theorem ReadsStatements.canonical {c d : Cursor} {ss : List Statement} {braceCloses : Bool} :
    ReadsStatements c ss d → (braceCloses = true → d.rest.head? = some '{') →
      bodyCanonical braceCloses ss = true ∧ Everywhere Node.isCanonical (statementsNodes ss)
  | .nil, _ => ⟨rfl, Everywhere.nil⟩
  | .leaf hi hs, hb => by
      obtain ⟨hplain, hnode⟩ := hi.leaf_canonical
      obtain ⟨hbody, hnodes⟩ := hs.canonical hb
      rw [bodyCanonical, hplain, ReadsStatements.fitsBefore hi hs hb, hbody]
      exact ⟨rfl, Everywhere.append_iff.mpr ⟨hnode, hnodes⟩⟩
  | @ReadsStatements.whole _ _ _ tag _ hi _ hs, hb => by
      obtain ⟨hbody, hnodes⟩ := hs.canonical hb
      have helement := element_canonical tag.span.stop hi.openTag_canonical
        (fun _ => rfl) ⟨rfl, Everywhere.nil⟩
      exact ⟨hbody, Everywhere.append_iff.mpr ⟨helement, hnodes⟩⟩
  | @ReadsStatements.element _ _ _ _ _ _ span _ _ hi hw hc _ hs, hb => by
      obtain ⟨hbody, hnodes⟩ := hs.canonical hb
      have helement := element_canonical span.stop hi.openTag_canonical
        (fun h => absurd (hw.symm.trans h) (by decide)) (hc.canonical nofun)
      exact ⟨hbody, Everywhere.append_iff.mpr ⟨helement, hnodes⟩⟩
  | .block hi hbl hs, hb => by
      obtain ⟨hbody, hnodes⟩ := hs.canonical hb
      exact ⟨hbody, Everywhere.append_iff.mpr ⟨hbl.canonical hi.openBlock_canonical, hnodes⟩⟩
theorem ReadsBlock.canonical {name : String} {head : BlockHead} {c d : Cursor}
    {b : BlockStatement} : ReadsBlock name head c b d → head.Canonical →
      Everywhere Node.isCanonical b.nodes
  | .close hp hcl, hh =>
      block_canonical hh (hp.canonical fun _ => hcl.closeBlock_head) rfl (Everywhere.nil)
  | .inverse hp he hv hcl, hh =>
      block_canonical hh (hp.canonical fun _ => he.elseMark_head) rfl
        (Everywhere.cons_iff.mpr (hv.canonical fun _ => hcl.closeBlock_head))
  | .chain hp he hb, hh => by
      have hblock := hb.canonical he.chainedElse_canonical
      exact block_canonical hh (hp.canonical fun _ => he.elseMark_head) rfl
        (Everywhere.cons_iff.mpr ⟨rfl, Everywhere.append_iff.mpr
          ⟨hblock, Everywhere.nil⟩⟩)
end

theorem Template.allCanonical {source : List Char} {t : Template}
    (h : Template.ofChars source = .ok t) : Everywhere Node.isCanonical t.nodes := by
  obtain ⟨hparams, d, hread, -⟩ := ofChars_eq_ok_iff.mp h
  have hstatements : bodyCanonical false t.body = true ∧
      Everywhere Node.isCanonical (statementsNodes t.body) := hread.canonical nofun
  have htemplate : (t.params.isEmpty && bodyCanonical false t.body) = true := by
    rw [hparams, hstatements.1]
    rfl
  exact Everywhere.cons_iff.mpr ⟨htemplate, hstatements.2⟩

/-- Every node of a template that was read is canonical. -/
theorem Template.isCanonical_of_parse {source filename : String} {t : Template}
    (h : Template.parse source filename = .ok t) : ∀ n ∈ t.nodes, n.isCanonical = true :=
  allCanonical (ofChars_of_parse h)

/-- A source in which texts end in braces, before marks and not. -/
def braceSource : String :=
  "<p a='\x7b b \x7b\x7bc\x7d\x7d' \x7b\x7bon \"x\" k=@y\x7d\x7d>1 < 2 \x7b</p>" ++
    "\x7b\x7b! -- \x7d\x7d\x7b\x7b#each (f 1) as |i|\x7d\x7dx \x7b " ++
    "\x7b\x7belse\x7d\x7dy\x7b\x7b/each\x7d\x7d"

theorem Template.isCanonical_of_parse_braces :
    ∃ t, Template.parse braceSource "braces.hbs" = .ok t ∧
      ∀ n ∈ t.nodes, n.isCanonical = true := by
  have hread : (Template.parse braceSource "braces.hbs").toOption.map (·.params) = some [] := by
    decide +kernel
  obtain ⟨t, ht, -⟩ := exists_of_parse hread
  exact ⟨t, ht, isCanonical_of_parse ht⟩

end Bracework
