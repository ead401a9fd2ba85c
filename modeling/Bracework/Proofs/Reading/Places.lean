/-
Reading — where the reader gets to, also when it fails.

The derivations say what a reader gives back and how far it goes; they do not say
by what ways it goes there, nor what it tries in a source that cannot be read.
`Enters p q` says that a reader that stands at `p` calls another one, or starts
the next round of its loop, and then stands at `q`.  There is one rule for every
call and for every round, with what must have been read before it.  `Raises p e`
says that the reader at `p` gives up with `e` by itself, with one rule for every
way to do so.

Lists of statements are read the way the brackets nest: the content of an element,
the program of a block and its inverse are each a list of its own, and a chained
block is entered from the block that it continues.
-/
import Mathlib.Logic.Relation
import Bracework.Proofs.Reading.Scanning
import Bracework.Proofs.Reading.Statements

namespace Bracework

open Reading

/-! ## Places -/

/-- What a reader is about to do, with what it was called with. -/
inductive Task where
  | token (text : List Char)
  | expression
  | arguments (named : Bool)
  | call (start : Nat)
  | mustache
  | names
  | blockHead (start : Nat)
  | parts (quote : Char)
  | value
  | attr (first : Char)
  | tagBody (tag : String) (start : Nat)
  | openingTag
  | text (start : Nat)
  | item
  | statements
  | inverse (name : String) (head : BlockHead)
  | block (name : String) (head : BlockHead)
  | children (tag : OpeningTag)
  | template

/-- The readers, numbered from the inside out, whatever they are called with.  A reader that has
not moved on only calls readers with smaller numbers. -/
def Task.level : Task → Nat
  | .token _ => 0
  | .expression => 1
  | .arguments _ => 2
  | .call _ => 3
  | .mustache => 4
  | .names => 5
  | .blockHead _ => 6
  | .parts _ => 7
  | .value => 8
  | .attr _ => 9
  | .tagBody _ _ => 10
  | .openingTag => 11
  | .text _ => 12
  | .item => 13
  | .statements => 14
  | .inverse _ _ => 15
  | .block _ _ => 16
  | .children _ => 17
  | .template => 18

/-- A reader and where in the source it stands. -/
structure Place where
  task : Task
  cursor : Cursor

/-! ## Calls and rounds -/

/-- The reader at a place calls another one, or starts its next round. -/
inductive Enters : Place → Place → Prop
  -- the template and its lists of statements
  | body {c : Cursor} : Enters ⟨.template, c⟩ ⟨.statements, c⟩
  | content {c : Cursor} {tag : OpeningTag} : Enters ⟨.children tag, c⟩ ⟨.statements, c⟩
  | program {c : Cursor} {name : String} {head : BlockHead} :
      Enters ⟨.block name head, c⟩ ⟨.statements, c⟩
  | inverse {c d e : Cursor} {name : String} {head : BlockHead} {program : List Statement}
      {mark : Span} :
      ReadsStatements c program d → ReadsItem d (.elseMark none mark) e →
      Enters ⟨.block name head, c⟩ ⟨.inverse name head, e⟩
  | otherwise {c : Cursor} {name : String} {head : BlockHead} :
      Enters ⟨.inverse name head, c⟩ ⟨.statements, c⟩
  | chain {c d e : Cursor} {name : String} {head inner : BlockHead} {program : List Statement}
      {mark : Span} :
      ReadsStatements c program d → ReadsItem d (.elseMark (some inner) mark) e →
      Enters ⟨.block name head, c⟩ ⟨.block name inner, e⟩
  -- statements
  | item {c : Cursor} : c.rest ≠ [] → Enters ⟨.statements, c⟩ ⟨.item, c⟩
  | children {c d : Cursor} {tag : OpeningTag} :
      ReadsItem c (.openTag tag) d → tag.isWhole = false →
      Enters ⟨.statements, c⟩ ⟨.children tag, d⟩
  | block {c d : Cursor} {head : BlockHead} :
      ReadsItem c (.openBlock head) d → Enters ⟨.statements, c⟩ ⟨.block head.name head, d⟩
  | nextStatement {c d : Cursor} {s : Statement} :
      ReadsStatements c [s] d → Enters ⟨.statements, c⟩ ⟨.statements, d⟩
  -- items
  | closingTagEnd {c : Cursor} :
      Mark.of c.rest = .closingTag →
      Enters ⟨.item, c⟩ ⟨.token Token.tagClose,
        ((c.advance Token.closingTagOpen.length).skip Token.isTagChar).skipSpace⟩
  | closingBlockEnd {c : Cursor} :
      Mark.of c.rest = .closingBlock →
      Enters ⟨.item, c⟩ ⟨.token Token.mustacheClose,
        ((behindBlockClose c).skip Token.isPathChar).skipSpace⟩
  | chainedHead {c : Cursor} :
      Mark.of c.rest = .elseMark → (behindElse c).startsWith Token.mustacheClose = false →
      Enters ⟨.item, c⟩ ⟨.blockHead c.offset, behindElse c⟩
  | chainedEnd {c d : Cursor} {head : BlockHead} :
      Mark.of c.rest = .elseMark → (behindElse c).startsWith Token.mustacheClose = false →
      ReadsBlockHead (behindElse c) c.offset head d →
      Enters ⟨.item, c⟩ ⟨.token Token.mustacheClose, d⟩
  | openingHead {c : Cursor} :
      Mark.of c.rest = .openingBlock →
      Enters ⟨.item, c⟩ ⟨.blockHead c.offset, (c.advance Token.blockOpen.length).skipSpace⟩
  | openingEnd {c d : Cursor} {head : BlockHead} :
      Mark.of c.rest = .openingBlock →
      ReadsBlockHead (c.advance Token.blockOpen.length).skipSpace c.offset head d →
      Enters ⟨.item, c⟩ ⟨.token Token.mustacheClose, d⟩
  | mustacheItem {c : Cursor} :
      Mark.of c.rest = .mustache → Enters ⟨.item, c⟩ ⟨.mustache, c⟩
  | tagItem {c : Cursor} : Mark.of c.rest = .openingTag → Enters ⟨.item, c⟩ ⟨.openingTag, c⟩
  | textItem {c : Cursor} : Mark.of c.rest = .text → Enters ⟨.item, c⟩ ⟨.text c.offset, c⟩
  | nextChar {c : Cursor} {start : Nat} :
      c.rest ≠ [] → c.startsWith Token.mustacheOpen = false →
      c.offset = start ∨
        Token.startsTag c.rest = false ∧ c.startsWith Token.commentOpen = false →
      Enters ⟨.text start, c⟩ ⟨.text start, c.advance 1⟩
  -- opening tags
  | tagStart {c : Cursor} : Enters ⟨.openingTag, c⟩ ⟨.token Token.tagOpen, c⟩
  | tagBody {c : Cursor} :
      c.startsWith Token.tagOpen = true →
      Enters ⟨.openingTag, c⟩
        ⟨.tagBody (String.ofList ((c.advance Token.tagOpen.length).taken Token.isTagChar)) c.offset,
          (c.advance Token.tagOpen.length).skip Token.isTagChar⟩
  | modifier {c : Cursor} {tag : String} {start : Nat} :
      c.skipSpace.startsWith Token.mustacheOpen = true →
      Enters ⟨.tagBody tag start, c⟩ ⟨.mustache, c.skipSpace⟩
  | afterModifier {c d : Cursor} {tag : String} {start : Nat} {m : Mustache} :
      c.skipSpace.startsWith Token.mustacheOpen = true → ReadsMustache c.skipSpace m d →
      Enters ⟨.tagBody tag start, c⟩ ⟨.tagBody tag start, d⟩
  | attr {c : Cursor} {tag : String} {start : Nat} {first : Char} {others : List Char} :
      c.skipSpace.rest = first :: others → c.skipSpace.startsWith Token.selfClose = false →
      first ≠ '>' → c.skipSpace.startsWith Token.mustacheOpen = false →
      Enters ⟨.tagBody tag start, c⟩ ⟨.attr first, c.skipSpace⟩
  | afterAttr {c d : Cursor} {tag : String} {start : Nat} {a : Attribute} :
      c.skipSpace.startsWith Token.selfClose = false → (∀ x ∈ c.skipSpace.rest.head?, x ≠ '>') →
      c.skipSpace.startsWith Token.mustacheOpen = false → ReadsAttribute c.skipSpace a d →
      Enters ⟨.tagBody tag start, c⟩ ⟨.tagBody tag start, d⟩
  -- attributes
  | value {c : Cursor} {first : Char} :
      (c.taken fun x => !Token.endsAttributeName x) ≠ [] →
      (behindAttributeName c).startsWith Token.equals = true →
      Enters ⟨.attr first, c⟩ ⟨.value, ((behindAttributeName c).advance 1).skipSpace⟩
  | mustacheValue {c : Cursor} :
      c.startsWith Token.mustacheOpen = true → Enters ⟨.value, c⟩ ⟨.mustache, c⟩
  | parts {c : Cursor} {quote : Char} {others : List Char} :
      c.startsWith Token.mustacheOpen = false → c.rest = quote :: others →
      quote = '"' ∨ quote = '\'' → Enters ⟨.value, c⟩ ⟨.parts quote, c.advance 1⟩
  | nextPartChar {c : Cursor} {quote : Char} :
      c.rest ≠ [] → Token.endsPart quote c.rest = false →
      Enters ⟨.parts quote, c⟩ ⟨.parts quote, c.advance 1⟩
  | part {c : Cursor} {quote : Char} :
      c.rest.head? ≠ some quote → c.startsWith Token.mustacheOpen = true →
      Enters ⟨.parts quote, c⟩ ⟨.mustache, c⟩
  | afterPart {c d : Cursor} {quote : Char} {m : Mustache} :
      c.rest.head? ≠ some quote → c.startsWith Token.mustacheOpen = true →
      ReadsMustache c m d → Enters ⟨.parts quote, c⟩ ⟨.parts quote, d⟩
  -- heads of blocks
  | headCall {c : Cursor} {start : Nat} : Enters ⟨.blockHead start, c⟩ ⟨.call start, c⟩
  | paramsBar {c d : Cursor} {start : Nat} {inner : Call} :
      ReadsCall c inner d → d.skipSpace.startsWith Token.paramsOpen = true →
      Enters ⟨.blockHead start, c⟩
        ⟨.token Token.paramsBar, (d.skipSpace.advance Token.paramsOpen.length).skipSpace⟩
  | names {c d : Cursor} {start : Nat} {inner : Call} :
      ReadsCall c inner d → d.skipSpace.startsWith Token.paramsOpen = true →
      (d.skipSpace.advance Token.paramsOpen.length).skipSpace.startsWith Token.paramsBar = true →
      Enters ⟨.blockHead start, c⟩
        ⟨.names, (d.skipSpace.advance Token.paramsOpen.length).skipSpace.advance
          Token.paramsBar.length⟩
  | nextName {c : Cursor} :
      c.skipSpace.startsWith Token.paramsBar = false →
      c.skipSpace.taken Token.isNameChar ≠ [] →
      Enters ⟨.names, c⟩ ⟨.names, c.skipSpace.skip Token.isNameChar⟩
  -- mustaches and calls
  | mustacheStart {c : Cursor} {trusting : Bool} :
      c.startsWith Token.trustingOpen = trusting →
      Enters ⟨.mustache, c⟩ ⟨.token (Mustache.opening trusting), c⟩
  | mustacheCall {c : Cursor} {trusting : Bool} :
      c.startsWith Token.trustingOpen = trusting →
      c.startsWith (Mustache.opening trusting) = true →
      Enters ⟨.mustache, c⟩
        ⟨.call c.offset, (c.advance (Mustache.opening trusting).length).skipSpace⟩
  | mustacheEnd {c d : Cursor} {trusting : Bool} {inner : Call} :
      c.startsWith Token.trustingOpen = trusting →
      c.startsWith (Mustache.opening trusting) = true →
      ReadsCall (c.advance (Mustache.opening trusting).length).skipSpace inner d →
      Enters ⟨.mustache, c⟩ ⟨.token (Mustache.closing trusting), d.skipSpace⟩
  | callee {c : Cursor} {start : Nat} :
      Token.endsCall c.rest = false → Enters ⟨.call start, c⟩ ⟨.expression, c⟩
  | arguments {c d : Cursor} {start : Nat} {callee : Expression} :
      Token.endsCall c.rest = false → ReadsExpression c callee d →
      Enters ⟨.call start, c⟩ ⟨.arguments false, d⟩
  | named {c : Cursor} {named : Bool} {name : List Char} :
      Token.endsCall c.skipSpace.rest = false →
      Token.argumentName? c.skipSpace.rest = some name →
      Enters ⟨.arguments named, c⟩ ⟨.expression, behindName c.skipSpace name⟩
  | afterNamed {c d : Cursor} {named : Bool} {name : List Char} {value : Expression} :
      Token.endsCall c.skipSpace.rest = false →
      Token.argumentName? c.skipSpace.rest = some name →
      ReadsExpression (behindName c.skipSpace name) value d →
      Enters ⟨.arguments named, c⟩ ⟨.arguments true, d⟩
  | positional {c : Cursor} :
      Token.endsCall c.skipSpace.rest = false → Token.argumentName? c.skipSpace.rest = none →
      Enters ⟨.arguments false, c⟩ ⟨.expression, c.skipSpace⟩
  | afterPositional {c d : Cursor} {value : Expression} :
      Token.endsCall c.skipSpace.rest = false → Token.argumentName? c.skipSpace.rest = none →
      ReadsExpression c.skipSpace value d →
      Enters ⟨.arguments false, c⟩ ⟨.arguments false, d⟩
  -- expressions
  | sub {c : Cursor} {others : List Char} :
      c.rest = '(' :: others →
      Enters ⟨.expression, c⟩ ⟨.call c.offset, (c.advance 1).skipSpace⟩
  | subEnd {c d : Cursor} {others : List Char} {inner : Call} :
      c.rest = '(' :: others → ReadsCall (c.advance 1).skipSpace inner d →
      Enters ⟨.expression, c⟩ ⟨.token Token.subClose, d.skipSpace⟩

/-! ## Failures -/

/-- The reader at a place gives up by itself. -/
inductive Raises : Place → ParseError → Prop
  -- what ends a list of statements does not end what the list is the content of
  | strayTag {c d e : Cursor} {ss : List Statement} {name : String} {span : Span} :
      ReadsStatements c ss d → ReadsItem d (.closeTag name span) e →
      Raises ⟨.template, c⟩ (Cursor.unexpected (.closingTag name) span)
  | strayBlock {c d e : Cursor} {ss : List Statement} {name : String} {span : Span} :
      ReadsStatements c ss d → ReadsItem d (.closeBlock name span) e →
      Raises ⟨.template, c⟩ (Cursor.unexpected (.closingBlock name) span)
  | strayElse {c d e : Cursor} {ss : List Statement} {chained : Option BlockHead} {span : Span} :
      ReadsStatements c ss d → ReadsItem d (.elseMark chained span) e →
      Raises ⟨.template, c⟩ (Cursor.unexpected .elseOutsideBlock span)
  | unclosedElement {c d : Cursor} {ss : List Statement} {tag : OpeningTag} :
      ReadsStatements c ss d → d.rest = [] →
      Raises ⟨.children tag, c⟩ ⟨.unclosedElement tag.tag, ⟨tag.span.start, d.offset⟩⟩
  | mismatchedClose {c d e : Cursor} {ss : List Statement} {tag : OpeningTag} {name : String}
      {span : Span} :
      ReadsStatements c ss d → ReadsItem d (.closeTag name span) e → name ≠ tag.tag →
      Raises ⟨.children tag, c⟩ ⟨.mismatchedClose tag.tag name, span⟩
  | blockCloseInElement {c d e : Cursor} {ss : List Statement} {tag : OpeningTag} {name : String}
      {span : Span} :
      ReadsStatements c ss d → ReadsItem d (.closeBlock name span) e →
      Raises ⟨.children tag, c⟩ (Cursor.unexpected (.closingBlockInElement name tag.tag) span)
  | elseInElement {c d e : Cursor} {ss : List Statement} {tag : OpeningTag}
      {chained : Option BlockHead} {span : Span} :
      ReadsStatements c ss d → ReadsItem d (.elseMark chained span) e →
      Raises ⟨.children tag, c⟩ (Cursor.unexpected (.elseInElement tag.tag) span)
  | unclosedProgram {c d : Cursor} {ss : List Statement} {name : String} {head : BlockHead} :
      ReadsStatements c ss d → d.rest = [] →
      Raises ⟨.block name head, c⟩ (Outline.unclosedBlock name head d.offset)
  | wrongProgramClose {c d e : Cursor} {ss : List Statement} {name found : String}
      {head : BlockHead} {span : Span} :
      ReadsStatements c ss d → ReadsItem d (.closeBlock found span) e → name ≠ found →
      Raises ⟨.block name head, c⟩ (Cursor.unexpected (.wrongBlockClose found name) span)
  | tagCloseInBlock {c d e : Cursor} {ss : List Statement} {name tag : String} {head : BlockHead}
      {span : Span} :
      ReadsStatements c ss d → ReadsItem d (.closeTag tag span) e →
      Raises ⟨.block name head, c⟩ (Cursor.unexpected (.closingTagInBlock tag name) span)
  | unclosedInverse {c d : Cursor} {ss : List Statement} {name : String} {head : BlockHead} :
      ReadsStatements c ss d → d.rest = [] →
      Raises ⟨.inverse name head, c⟩ (Outline.unclosedBlock name head d.offset)
  | wrongInverseClose {c d e : Cursor} {ss : List Statement} {name found : String}
      {head : BlockHead} {span : Span} :
      ReadsStatements c ss d → ReadsItem d (.closeBlock found span) e → name ≠ found →
      Raises ⟨.inverse name head, c⟩ (Cursor.unexpected (.wrongBlockClose found name) span)
  | tagCloseInInverse {c d e : Cursor} {ss : List Statement} {name tag : String}
      {head : BlockHead} {span : Span} :
      ReadsStatements c ss d → ReadsItem d (.closeTag tag span) e →
      Raises ⟨.inverse name head, c⟩ (Outline.unclosedBlock name head span.stop)
  | elseInInverse {c d e : Cursor} {ss : List Statement} {name : String} {head : BlockHead}
      {chained : Option BlockHead} {span : Span} :
      ReadsStatements c ss d → ReadsItem d (.elseMark chained span) e →
      Raises ⟨.inverse name head, c⟩ (Outline.unclosedBlock name head span.stop)
  -- comments
  | unclosedLongRemark {c : Cursor} :
      Mark.of c.rest = .longRemark →
      splitAtFirst? Token.longRemarkClose (c.advance Token.longRemarkOpen.length).rest = none →
      Raises ⟨.item, c⟩ (c.endsWithout (.commentClose (String.ofList Token.longRemarkClose)))
  | unclosedRemark {c : Cursor} :
      Mark.of c.rest = .remark →
      splitAtFirst? Token.mustacheClose (c.advance Token.remarkOpen.length).rest = none →
      Raises ⟨.item, c⟩ (c.endsWithout (.commentClose (String.ofList Token.mustacheClose)))
  | unclosedComment {c : Cursor} :
      Mark.of c.rest = .comment →
      splitAtFirst? Token.commentClose (c.advance Token.commentOpen.length).rest = none →
      Raises ⟨.item, c⟩ (c.endsWithout (.commentClose (String.ofList Token.commentClose)))
  -- tags and attributes
  | endInTag {c : Cursor} {tag : String} {start : Nat} :
      c.skipSpace.rest = [] →
      Raises ⟨.tagBody tag start, c⟩ ⟨.unclosedElement tag, c.skipSpace.spanFrom start⟩
  | noAttributeName {c : Cursor} {first : Char} :
      (c.taken fun x => !Token.endsAttributeName x) = [] →
      Raises ⟨.attr first, c⟩ (Cursor.unexpected (.inTag first) c.here)
  | unclosedQuote {c : Cursor} {quote : Char} :
      c.rest = [] → Raises ⟨.parts quote, c⟩ (c.endsWithout (.attributeQuote quote))
  -- block parameters
  | noParam {c : Cursor} :
      c.skipSpace.startsWith Token.paramsBar = false →
      c.skipSpace.taken Token.isNameChar = [] →
      Raises ⟨.names, c⟩ (Cursor.unexpected .noBlockParam c.skipSpace.here)
  -- calls and expressions
  | noCallee {c : Cursor} {start : Nat} :
      Token.endsCall c.rest = true →
      Raises ⟨.call start, c⟩ (Cursor.unexpected .noExpression (c.spanFrom start))
  | lateParam {c : Cursor} :
      Token.endsCall c.skipSpace.rest = false → Token.argumentName? c.skipSpace.rest = none →
      Raises ⟨.arguments true, c⟩ (Cursor.unexpected .lateParam c.skipSpace.here)
  | noExpression {c : Cursor} :
      c.rest = [] → Raises ⟨.expression, c⟩ (c.endsWithout .expression)
  | unclosedString {c : Cursor} {quote : Char} {others : List Char} :
      c.rest = quote :: others → quote = '"' ∨ quote = '\'' →
      splitAtFirst? [quote] others = none →
      Raises ⟨.expression, c⟩ (c.endsWithout (.stringQuote quote))
  | badNumber {c : Cursor} {first : Char} {others : List Char} :
      c.rest = first :: others → startsNumeral (first :: others) = true →
      Numeral.read? (first :: others.takeWhile isNumeralChar) = none →
      Raises ⟨.expression, c⟩
        (Cursor.unexpected (.badNumber (String.ofList (first :: others.takeWhile isNumeralChar)))
          ⟨c.offset, c.offset + utf8Length (first :: others.takeWhile isNumeralChar)⟩)
  | badStart {c : Cursor} {first : Char} {others : List Char} :
      c.rest = first :: others → first ∉ ['(', '"', '\''] →
      startsNumeral (first :: others) = false → Token.isPathChar first = false →
      Raises ⟨.expression, c⟩
        (Cursor.unexpected (.inExpression first) ⟨c.offset, c.offset + first.utf8Size⟩)
  -- delimiters
  | endBeforeToken {c : Cursor} {text : List Char} :
      c.rest = [] → Raises ⟨.token text, c⟩ (c.endsWithout (.token (String.ofList text)))
  | otherThanToken {c : Cursor} {text others : List Char} {found : Char} :
      c.rest = found :: others → c.startsWith text = false →
      Raises ⟨.token text, c⟩
        (Cursor.unexpected (.otherThan (String.ofList text) found) c.here)

/-- The places that are entered while a source is read. -/
def Visits (source : List Char) (p : Place) : Prop :=
  Relation.ReflTransGen Enters ⟨.template, Cursor.ofChars source⟩ p

end Bracework
