/-
Reading — derivations: what it means that something stands in a source.

The readers compute; the relations here only say.  `ReadsExpression c e d`
says that the expression `e` stands at the place `c` and that reading goes on
at the place `d`, and so for every other piece of the notation.  There is one
rule for every way in which a reader can succeed, so a fact about all sources
that can be read is an induction on derivations, with one case a rule, and
never goes through the failures.

`Mark` names what the head of a text announces.  The rules for items say which
mark must be met; that the other tests do not answer first is then one fact
about `Mark.of`.
-/
import Bracework.Template.Item

namespace Bracework

/-- The opening delimiter of a mustache. -/
def Mustache.opening (trusting : Bool) : List Char :=
  if trusting then Token.trustingOpen else Token.mustacheOpen

/-- The closing delimiter of a mustache. -/
def Mustache.closing (trusting : Bool) : List Char :=
  if trusting then Token.trustingClose else Token.mustacheClose

namespace Reading

/-! ## Expressions and calls -/

mutual
/-- An expression stands at a place, and reading goes on at another. -/
inductive ReadsExpression : Cursor → Expression → Cursor → Prop
  | sub {c d : Cursor} {others : List Char} {inner : Call} :
      c.rest = '(' :: others → ReadsCall (c.advance 1).skipSpace inner d →
      d.skipSpace.startsWith Token.subClose = true →
      ReadsExpression c
        (.sub inner ((d.skipSpace.advance Token.subClose.length).spanFrom c.offset))
        (d.skipSpace.advance Token.subClose.length)
  | string {c : Cursor} {quote : Char} {others text after : List Char} :
      c.rest = quote :: others → quote = '"' ∨ quote = '\'' →
      splitAtFirst? [quote] others = some (text, after) →
      ReadsExpression c (.literal (.string (String.ofList text)))
        ⟨after, c.offset + quote.utf8Size + utf8Length text + quote.utf8Size⟩
  | numeral {c : Cursor} {first : Char} {others : List Char} {value : Binary64} :
      c.rest = first :: others → startsNumeral (first :: others) = true →
      Numeral.read? (first :: others.takeWhile isNumeralChar) = some value →
      ReadsExpression c (.literal (.number value))
        ⟨others.dropWhile isNumeralChar,
          c.offset + utf8Length (first :: others.takeWhile isNumeralChar)⟩
  | word {c : Cursor} {first : Char} {others : List Char} :
      c.rest = first :: others → startsNumeral (first :: others) = false →
      Token.isPathChar first = true →
      ReadsExpression c
        (.ofWord (c.taken Token.isPathChar) ((c.skip Token.isPathChar).spanFrom c.offset))
        (c.skip Token.isPathChar)
/-- A call stands at a place; reading goes on at what ends its arguments. -/
inductive ReadsCall : Cursor → Call → Cursor → Prop
  | call {c d e : Cursor} {callee : Expression} {params : List Expression}
      {hash : List (String × Expression)} :
      Token.endsCall c.rest = false → ReadsExpression c callee d →
      ReadsArguments d false params hash e → ReadsCall c ⟨callee, params, hash⟩ e
/-- Arguments stand at a place, behind a named one or not. -/
inductive ReadsArguments :
    Cursor → Bool → List Expression → List (String × Expression) → Cursor → Prop
  | done {c : Cursor} {named : Bool} :
      Token.endsCall c.skipSpace.rest = true → ReadsArguments c named [] [] c.skipSpace
  | named {c d e : Cursor} {named : Bool} {name : List Char} {value : Expression}
      {params : List Expression} {hash : List (String × Expression)} :
      Token.endsCall c.skipSpace.rest = false →
      Token.argumentName? c.skipSpace.rest = some name →
      ReadsExpression (behindName c.skipSpace name) value d →
      ReadsArguments d true params hash e →
      ReadsArguments c named params ((String.ofList name, value) :: hash) e
  | positional {c d e : Cursor} {value : Expression} {params : List Expression}
      {hash : List (String × Expression)} :
      Token.endsCall c.skipSpace.rest = false → Token.argumentName? c.skipSpace.rest = none →
      ReadsExpression c.skipSpace value d → ReadsArguments d false params hash e →
      ReadsArguments c false (value :: params) hash e
end

/-! ## Mustaches and block heads -/

/-- A mustache stands at a place. -/
inductive ReadsMustache : Cursor → Mustache → Cursor → Prop
  | mustache {c d : Cursor} {trusting : Bool} {inner : Call} :
      c.startsWith Token.trustingOpen = trusting →
      c.startsWith (Mustache.opening trusting) = true →
      ReadsCall (c.advance (Mustache.opening trusting).length).skipSpace inner d →
      d.skipSpace.startsWith (Mustache.closing trusting) = true →
      ReadsMustache c
        ⟨inner, trusting,
          (d.skipSpace.advance (Mustache.closing trusting).length).spanFrom c.offset⟩
        (d.skipSpace.advance (Mustache.closing trusting).length)

/-- Block parameters stand at a place, up to and with their closing bar. -/
inductive ReadsNames : Cursor → List String → Cursor → Prop
  | bar {c : Cursor} :
      c.skipSpace.startsWith Token.paramsBar = true →
      ReadsNames c [] (c.skipSpace.advance 1)
  | name {c d : Cursor} {names : List String} :
      c.skipSpace.startsWith Token.paramsBar = false →
      c.skipSpace.taken Token.isNameChar ≠ [] →
      ReadsNames (c.skipSpace.skip Token.isNameChar) names d →
      ReadsNames c (String.ofList (c.skipSpace.taken Token.isNameChar) :: names) d

/-- Block parameters stand at a place, or are not introduced there. -/
inductive ReadsBlockParams : Cursor → List String → Cursor → Prop
  | some {c d : Cursor} {names : List String} :
      c.startsWith Token.paramsOpen = true →
      (c.advance Token.paramsOpen.length).skipSpace.startsWith Token.paramsBar = true →
      ReadsNames ((c.advance Token.paramsOpen.length).skipSpace.advance Token.paramsBar.length)
        names d →
      ReadsBlockParams c names d.skipSpace
  | none {c : Cursor} :
      c.startsWith Token.paramsOpen = false → ReadsBlockParams c [] c

/-- The head of a block that started at an offset stands at a place. -/
inductive ReadsBlockHead : Cursor → Nat → BlockHead → Cursor → Prop
  | head {c d e : Cursor} {start : Nat} {inner : Call} {params : List String} :
      ReadsCall c inner d → ReadsBlockParams d.skipSpace params e →
      ReadsBlockHead c start ⟨inner, params, start⟩ e

/-! ## Opening tags -/

/-- The place behind the text of a quoted value. -/
def behindText (quote : Char) (c : Cursor) : Cursor := c.advance (partText quote c.rest).length

/-- The text of a quoted value as a piece. -/
def frontPart (quote : Char) (c : Cursor) : List AttributePart :=
  textPart (partText quote c.rest) ((behindText quote c).spanFrom c.offset)

/-- The pieces of a quoted value stand at a place, up to and with the quote. -/
inductive ReadsParts (quote : Char) : Cursor → List AttributePart → Cursor → Prop
  | close {c : Cursor} {others : List Char} :
      (behindText quote c).rest = quote :: others →
      ReadsParts quote c (frontPart quote c) ((behindText quote c).advance 1)
  | mustache {c d e : Cursor} {first : Char} {others : List Char} {m : Mustache}
      {pieces : List AttributePart} :
      (behindText quote c).rest = first :: others → first ≠ quote →
      ReadsMustache (behindText quote c) m d → ReadsParts quote d pieces e →
      ReadsParts quote c (frontPart quote c ++ .mustache m :: pieces) e

/-- An attribute value stands at a place. -/
inductive ReadsValue : Cursor → AttributeValue → Cursor → Prop
  | mustache {c d : Cursor} {m : Mustache} :
      c.startsWith Token.mustacheOpen = true → ReadsMustache c m d →
      ReadsValue c (.mustache m) d
  | quoted {c d : Cursor} {quote : Char} {others : List Char} {pieces : List AttributePart} :
      c.startsWith Token.mustacheOpen = false → c.rest = quote :: others →
      quote = '"' ∨ quote = '\'' → ReadsParts quote (c.advance 1) pieces d →
      ReadsValue c (valueOfParts (d.spanFrom c.offset) pieces) d
  | bare {c : Cursor} :
      c.startsWith Token.mustacheOpen = false →
      (∀ quote ∈ c.rest.head?, ¬ (quote = '"' ∨ quote = '\'')) →
      ReadsValue c
        (.text ⟨String.ofList (c.taken fun x => !Token.endsBareValue x),
          (c.skip fun x => !Token.endsBareValue x).spanFrom c.offset⟩)
        (c.skip fun x => !Token.endsBareValue x)

/-- The equals sign and the value of an attribute stand at a place, or are left out there. -/
inductive ReadsAttributeTail : Cursor → AttributeValue → Cursor → Prop
  | value {c d : Cursor} {v : AttributeValue} :
      c.startsWith Token.equals = true → ReadsValue (c.advance 1).skipSpace v d →
      ReadsAttributeTail c v d
  | empty {c : Cursor} :
      c.startsWith Token.equals = false → ReadsAttributeTail c (.text ⟨"", c.here⟩) c

/-- The place behind the name of an attribute and blanks. -/
def behindAttributeName (c : Cursor) : Cursor :=
  (c.skip fun x => !Token.endsAttributeName x).skipSpace

/-- An attribute stands at a place. -/
inductive ReadsAttribute : Cursor → Attribute → Cursor → Prop
  | attr {c d : Cursor} {v : AttributeValue} :
      (c.taken fun x => !Token.endsAttributeName x) ≠ [] →
      ReadsAttributeTail (behindAttributeName c) v d →
      ReadsAttribute c
        ⟨String.ofList (c.taken fun x => !Token.endsAttributeName x), v, d.spanFrom c.offset⟩ d

/-- Attributes and modifiers stand at a place, up to and with the end of their tag. -/
inductive ReadsTagBody : Cursor → List Attribute → List Mustache → Bool → Cursor → Prop
  | selfClose {c : Cursor} :
      c.skipSpace.startsWith Token.selfClose = true →
      ReadsTagBody c [] [] true (c.skipSpace.advance 2)
  | close {c : Cursor} {others : List Char} :
      c.skipSpace.rest = '>' :: others → ReadsTagBody c [] [] false (c.skipSpace.advance 1)
  | modifier {c d e : Cursor} {m : Mustache} {attributes : List Attribute}
      {modifiers : List Mustache} {selfClosing : Bool} :
      c.skipSpace.startsWith Token.mustacheOpen = true → ReadsMustache c.skipSpace m d →
      ReadsTagBody d attributes modifiers selfClosing e →
      ReadsTagBody c attributes (m :: modifiers) selfClosing e
  | attr {c d e : Cursor} {a : Attribute} {attributes : List Attribute}
      {modifiers : List Mustache} {selfClosing : Bool} :
      c.skipSpace.startsWith Token.selfClose = false →
      (∀ x ∈ c.skipSpace.rest.head?, x ≠ '>') →
      c.skipSpace.startsWith Token.mustacheOpen = false → ReadsAttribute c.skipSpace a d →
      ReadsTagBody d attributes modifiers selfClosing e →
      ReadsTagBody c (a :: attributes) modifiers selfClosing e

/-- An opening tag stands at a place. -/
inductive ReadsOpeningTag : Cursor → OpeningTag → Cursor → Prop
  | tag {c d : Cursor} {attributes : List Attribute} {modifiers : List Mustache}
      {selfClosing : Bool} :
      c.startsWith Token.tagOpen = true →
      ReadsTagBody ((c.advance Token.tagOpen.length).skip Token.isTagChar) attributes modifiers
        selfClosing d →
      ReadsOpeningTag c
        ⟨String.ofList ((c.advance Token.tagOpen.length).taken Token.isTagChar), attributes,
          modifiers, selfClosing, d.spanFrom c.offset⟩ d

end Reading

/-! ## Items -/

/-- What the head of a text announces. -/
inductive Mark where
  | closingTag
  | closingBlock
  | elseMark
  | longRemark
  | remark
  | openingBlock
  | mustache
  | comment
  | openingTag
  | text
deriving DecidableEq, Repr

/-- The mark at the head of a text: of those that fit, the one that is tested first. -/
def Mark.of (rest : List Char) : Mark :=
  if Token.closingTagOpen.isPrefixOf rest then .closingTag
  else if Token.blockClose.isPrefixOf rest then .closingBlock
  else if Token.startsElse rest then .elseMark
  else if Token.longRemarkOpen.isPrefixOf rest then .longRemark
  else if Token.remarkOpen.isPrefixOf rest then .remark
  else if Token.blockOpen.isPrefixOf rest then .openingBlock
  else if Token.mustacheOpen.isPrefixOf rest then .mustache
  else if Token.commentOpen.isPrefixOf rest then .comment
  else if Token.startsTag rest then .openingTag
  else .text

namespace Reading

/-- A comment between two delimiters stands at a place. -/
inductive ReadsComment (html : Bool) (opening closing : List Char) :
    Cursor → Comment → Cursor → Prop
  | comment {c : Cursor} {value after : List Char} :
      c.startsWith opening = true →
      splitAtFirst? closing (c.advance opening.length).rest = some (value, after) →
      ReadsComment html opening closing c
        ⟨String.ofList value, html, ⟨c.offset,
          (c.advance opening.length).offset + utf8Length value + utf8Length closing⟩⟩
        ⟨after, (c.advance opening.length).offset + utf8Length value + utf8Length closing⟩

/-- The place behind the mark that opens the closing of a block, and blanks. -/
def behindBlockClose (c : Cursor) : Cursor := (c.advance Token.blockClose.length).skipSpace

/-- The place behind the mark that opens an else mark, and blanks. -/
def behindElse (c : Cursor) : Cursor := (c.advance Token.elseOpen.length).skipSpace

/-- An item stands at a place. -/
inductive ReadsItem : Cursor → Item → Cursor → Prop
  | closingTag {c : Cursor} {d e : Cursor} :
      Mark.of c.rest = .closingTag → d = c.advance Token.closingTagOpen.length →
      (d.skip Token.isTagChar).skipSpace.startsWith Token.tagClose = true →
      e = (d.skip Token.isTagChar).skipSpace.advance Token.tagClose.length →
      ReadsItem c (.closeTag (String.ofList (d.taken Token.isTagChar)) (e.spanFrom c.offset)) e
  | closingBlock {c d e : Cursor} :
      Mark.of c.rest = .closingBlock → d = behindBlockClose c →
      (d.skip Token.isPathChar).skipSpace.startsWith Token.mustacheClose = true →
      e = (d.skip Token.isPathChar).skipSpace.advance Token.mustacheClose.length →
      ReadsItem c (.closeBlock (String.ofList (d.taken Token.isPathChar)) (e.spanFrom c.offset)) e
  | bareElse {c : Cursor} :
      Mark.of c.rest = .elseMark → (behindElse c).startsWith Token.mustacheClose = true →
      ReadsItem c (.elseMark none (((behindElse c).advance 2).spanFrom c.offset))
        ((behindElse c).advance 2)
  | chainedElse {c d : Cursor} {head : BlockHead} :
      Mark.of c.rest = .elseMark → (behindElse c).startsWith Token.mustacheClose = false →
      ReadsBlockHead (behindElse c) c.offset head d →
      d.startsWith Token.mustacheClose = true →
      ReadsItem c
        (.elseMark (some head) ((d.advance Token.mustacheClose.length).spanFrom c.offset))
        (d.advance Token.mustacheClose.length)
  | longRemark {c d : Cursor} {remark : Comment} :
      Mark.of c.rest = .longRemark →
      ReadsComment false Token.longRemarkOpen Token.longRemarkClose c remark d →
      ReadsItem c (.leaf (.comment remark)) d
  | remark {c d : Cursor} {remark : Comment} :
      Mark.of c.rest = .remark →
      ReadsComment false Token.remarkOpen Token.mustacheClose c remark d →
      ReadsItem c (.leaf (.comment remark)) d
  | openingBlock {c d : Cursor} {head : BlockHead} :
      Mark.of c.rest = .openingBlock →
      ReadsBlockHead (c.advance Token.blockOpen.length).skipSpace c.offset head d →
      d.startsWith Token.mustacheClose = true →
      ReadsItem c (.openBlock head) (d.advance Token.mustacheClose.length)
  | mustache {c d : Cursor} {m : Mustache} :
      Mark.of c.rest = .mustache → ReadsMustache c m d → ReadsItem c (.leaf (.mustache m)) d
  | comment {c d : Cursor} {comment : Comment} :
      Mark.of c.rest = .comment →
      ReadsComment true Token.commentOpen Token.commentClose c comment d →
      ReadsItem c (.leaf (.comment comment)) d
  | openingTag {c d : Cursor} {tag : OpeningTag} :
      Mark.of c.rest = .openingTag → ReadsOpeningTag c tag d → ReadsItem c (.openTag tag) d
  | text {c : Cursor} {first : Char} {others : List Char} :
      Mark.of c.rest = .text → c.rest = first :: others →
      ReadsItem c
        (.leaf (.text ⟨String.ofList (first :: textTail others),
          (c.advance (first :: textTail others).length).spanFrom c.offset⟩))
        (c.advance (first :: textTail others).length)

end Reading

end Bracework
