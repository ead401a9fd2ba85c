/-
Printing — the trees that their text denotes.

Not every tree can be written down: a text may hold a mark that the reader
takes for the beginning of something else, two texts in a row become one, a
path may be spelled like a number.  `isPrintable` excludes just what would be
read differently.  Most of its conditions look at one node; the others are
about neighbours, where the last character of one node and the first of the
next would make up a mark together.
-/
import Bracework.Template.Printer
import Bracework.Template.Reading.Expression
import Bracework.Template.Validity

namespace Bracework

/-! ## Trees without their spans -/

mutual
/-- An expression as if it came from no source. -/
def Expression.eraseSpans : Expression → Expression
  | .path p => .path ⟨p.text, .none⟩
  | .literal l => .literal l
  | .sub c _ => .sub c.eraseSpans .none
termination_by structural e => e

/-- A call as if it came from no source. -/
def Call.eraseSpans : Call → Call
  | ⟨callee, params, hash⟩ => ⟨callee.eraseSpans, eraseParamsSpans params, eraseHashSpans hash⟩
termination_by structural c => c

/-- Positional arguments as if they came from no source. -/
def eraseParamsSpans : List Expression → List Expression
  | [] => []
  | e :: es => e.eraseSpans :: eraseParamsSpans es
termination_by structural es => es

/-- Named arguments as if they came from no source. -/
def eraseHashSpans : List (String × Expression) → List (String × Expression)
  | [] => []
  | (key, e) :: rest => (key, e.eraseSpans) :: eraseHashSpans rest
termination_by structural rest => rest
end

/-- A mustache as if it came from no source. -/
def Mustache.eraseSpans (m : Mustache) : Mustache := ⟨m.call.eraseSpans, m.trusting, .none⟩

/-- A text as if it came from no source. -/
def Text.eraseSpan (t : Text) : Text := ⟨t.chars, .none⟩

/-- A comment as if it came from no source. -/
def Comment.eraseSpan (c : Comment) : Comment := ⟨c.value, c.html, .none⟩

/-- A piece of an attribute value as if it came from no source. -/
def AttributePart.eraseSpans : AttributePart → AttributePart
  | .text t => .text t.eraseSpan
  | .mustache m => .mustache m.eraseSpans

/-- An attribute value as if it came from no source. -/
def AttributeValue.eraseSpans : AttributeValue → AttributeValue
  | .text t => .text t.eraseSpan
  | .mustache m => .mustache m.eraseSpans
  | .concat parts => .concat (parts.map AttributePart.eraseSpans)

/-- An attribute as if it came from no source. -/
def Attribute.eraseSpans (a : Attribute) : Attribute := ⟨a.name, a.value.eraseSpans, .none⟩

mutual
/-- A statement as if it came from no source. -/
def Statement.eraseSpans : Statement → Statement
  | .element e => .element e.eraseSpans
  | .text t => .text t.eraseSpan
  | .mustache m => .mustache m.eraseSpans
  | .block b => .block b.eraseSpans
  | .comment c => .comment c.eraseSpan
termination_by structural s => s

/-- An element as if it came from no source. -/
def Element.eraseSpans : Element → Element
  | ⟨tag, attributes, modifiers, children, selfClosing, _⟩ =>
      ⟨tag, attributes.map Attribute.eraseSpans, modifiers.map Mustache.eraseSpans,
        eraseStatementsSpans children, selfClosing, .none⟩
termination_by structural e => e

/-- A block statement as if it came from no source. -/
def BlockStatement.eraseSpans : BlockStatement → BlockStatement
  | ⟨call, program, inverse, _⟩ =>
      ⟨call.eraseSpans, program.eraseSpans, eraseInverseSpans inverse, .none⟩
termination_by structural b => b

/-- An inverse as if it came from no source. -/
def eraseInverseSpans : Option Block → Option Block
  | none => none
  | some b => some b.eraseSpans
termination_by structural b => b

/-- A block as if it came from no source. -/
def Block.eraseSpans : Block → Block
  | ⟨body, params⟩ => ⟨eraseStatementsSpans body, params⟩
termination_by structural b => b

/-- Statements as if they came from no source. -/
def eraseStatementsSpans : List Statement → List Statement
  | [] => []
  | s :: ss => s.eraseSpans :: eraseStatementsSpans ss
termination_by structural ss => ss
end

/-- A template as if it came from no source. -/
def Template.eraseSpans (t : Template) : Template := ⟨eraseStatementsSpans t.body, t.params⟩

/-! ## Expressions that can be written -/

namespace Token

/-- Whether a test of what lies ahead holds at some character of a text. -/
def somewhere (ahead : List Char → Bool) : List Char → Bool
  | [] => false
  | c :: cs => ahead (c :: cs) || somewhere ahead cs

/-- Whether a mark stands somewhere in a text. -/
def occursIn (mark text : List Char) : Bool := somewhere mark.isPrefixOf text

/-- Whether the text here would not be read as text: a curly mark, a tag or a comment. -/
def startsMark (cs : List Char) : Bool :=
  mustacheOpen.isPrefixOf cs || startsTag cs || commentOpen.isPrefixOf cs

/-- Whether a text ends with a brace, which a brace behind it would make a mark of. -/
def endsWithBrace (text : List Char) : Bool := text.getLast? == some '{'

end Token

/-- Whether a text is the name of a named argument or of a block parameter. -/
def isArgumentName (name : String) : Bool :=
  !name.isEmpty && name.toList.all Token.isNameChar

/-- The words that stand for constants. -/
def Literal.words : List (List Char) :=
  [['t', 'r', 'u', 'e'], ['f', 'a', 'l', 's', 'e'], ['n', 'u', 'l', 'l'],
   ['u', 'n', 'd', 'e', 'f', 'i', 'n', 'e', 'd']]

/-- Whether a literal can be written: a string must leave one kind of quote unused, and only
finite numbers have numerals. -/
def Literal.isPrintable : Literal → Bool
  | .string text => !(text.toList.contains '"' && text.toList.contains '\'')
  | .number value => value.isFinite
  | .boolean _ => true
  | .null => true
  | .undefined => true

/-- Whether a path can be written: it is a word, but neither a numeral nor a constant. -/
def Path.isPrintable (p : Path) : Bool :=
  !p.text.isEmpty && p.text.toList.all Token.isPathChar &&
    !Reading.startsNumeral p.text.toList && !Literal.words.contains p.text.toList

/-- Whether an expression is the path that consists of one given word. -/
def Expression.isWord (word : String) (e : Expression) : Bool := e.pathText? == some word

mutual
/-- Whether an expression can be written. -/
def Expression.isPrintable : Expression → Bool
  | .path p => p.isPrintable
  | .literal l => l.isPrintable
  | .sub c _ => c.isPrintable false
termination_by structural e => e

/-- Whether a call can be written, and whether block parameters may follow it.  The path `as`
before a blank would introduce such parameters. -/
def Call.isPrintable : Call → Bool → Bool
  | ⟨callee, params, hash⟩, withParams =>
      callee.isPrintable &&
        !(callee.isWord "as" && (withParams || !params.isEmpty || !hash.isEmpty)) &&
        paramsPrintable params (withParams || !hash.isEmpty) && hashPrintable hash
termination_by structural c => c

/-- Whether positional arguments can be written, before something else or not. -/
def paramsPrintable : List Expression → Bool → Bool
  | [], _ => true
  | e :: es, before =>
      e.isPrintable && !(e.isWord "as" && (before || !es.isEmpty)) && paramsPrintable es before
termination_by structural es => es

/-- Whether named arguments can be written. -/
def hashPrintable : List (String × Expression) → Bool
  | [] => true
  | (key, e) :: rest => isArgumentName key && e.isPrintable && hashPrintable rest
termination_by structural rest => rest
end

/-! ## Attributes that can be written -/

/-- Whether a mustache can be written. -/
def Mustache.isPrintable (m : Mustache) : Bool := m.call.isPrintable false

/-- Whether a text can stand between double quotes. -/
def isQuotable (text : List Char) : Bool :=
  !text.contains '"' && !Token.occursIn Token.mustacheOpen text

/-- Whether a piece of a value is a mustache. -/
def AttributePart.isMustache : AttributePart → Bool
  | .text _ => false
  | .mustache _ => true

/-- Whether pieces can be written one after the other: no two texts in a row, and no text
that runs into a mustache. -/
def partsPrintable : List AttributePart → Bool
  | [] => true
  | .mustache m :: parts => m.isPrintable && partsPrintable parts
  | .text t :: parts =>
      !t.chars.isEmpty && isQuotable t.chars.toList &&
        (match parts with
          | [] => true
          | .text _ :: _ => false
          | .mustache _ :: _ => !Token.endsWithBrace t.chars.toList) &&
        partsPrintable parts

/-- Whether an attribute value can be written; pieces without a mustache would be a text. -/
def AttributeValue.isPrintable : AttributeValue → Bool
  | .text t => isQuotable t.chars.toList
  | .mustache m => m.isPrintable
  | .concat parts => parts.any AttributePart.isMustache && partsPrintable parts

/-- Whether an attribute can be written; its name must not be taken for a modifier. -/
def Attribute.isPrintable (a : Attribute) : Bool :=
  isAttributeName a.name && !Token.mustacheOpen.isPrefixOf a.name.toList && a.value.isPrintable

/-! ## Statements that can be written -/

/-- Whether a text can be written: nothing in it begins a mark. -/
def Text.isPrintable (t : Text) : Bool :=
  !t.chars.isEmpty && !Token.somewhere Token.startsMark t.chars.toList

/-- Whether a comment can be written: its closing delimiter is not in it. -/
def Comment.isPrintable (c : Comment) : Bool :=
  !Token.occursIn (if c.html then Token.commentClose else Token.longRemarkClose) c.value.toList

/-- Whether a tag can be written: an ASCII letter, then characters of a tag. -/
def isPrintableTag (tag : String) : Bool :=
  match tag.toList with
  | [] => false
  | first :: others => first.isAlpha && others.all Token.isTagChar

/-- Whether the text of a statement begins with a brace. -/
def Statement.startsWithBrace : Statement → Bool
  | .element _ => false
  | .text _ => false
  | .mustache _ => true
  | .block _ => true
  | .comment c => !c.html

/-- Whether a statement can stand before others, or last before a closing mark that begins
with a brace or not: texts do not meet, nor make up a mark with what follows. -/
def Statement.fitsBefore (braceCloses : Bool) : Statement → List Statement → Bool
  | .text t, [] => !(braceCloses && Token.endsWithBrace t.chars.toList)
  | .text _, .text _ :: _ => false
  | .text t, s :: _ => !(s.startsWithBrace && Token.endsWithBrace t.chars.toList)
  | _, _ => true

mutual
/-- Whether a statement can be written.  A mustache of the path `else` would divide a block. -/
def Statement.isPrintable : Statement → Bool
  | .element e => e.isPrintable
  | .text t => t.isPrintable
  | .mustache m => m.isPrintable && (m.trusting || !m.call.callee.isWord "else")
  | .block b => b.isPrintable
  | .comment c => c.isPrintable
termination_by structural s => s

/-- Whether an element can be written; one without a closing tag shows no children. -/
def Element.isPrintable : Element → Bool
  | ⟨tag, attributes, modifiers, children, selfClosing, _⟩ =>
      isPrintableTag tag && attributes.all Attribute.isPrintable &&
        modifiers.all Mustache.isPrintable &&
        (!(selfClosing || Element.voidTags.contains tag) || children.isEmpty) &&
        statementsPrintable children false
termination_by structural e => e

/-- Whether a block statement can be written. -/
def BlockStatement.isPrintable : BlockStatement → Bool
  | ⟨call, ⟨body, params⟩, inverse, _⟩ =>
      call.isPrintable (!params.isEmpty) && params.all isArgumentName &&
        statementsPrintable body true && inversePrintable inverse
termination_by structural b => b

/-- Whether an inverse can be written: it has no parameters. -/
def inversePrintable : Option Block → Bool
  | none => true
  | some ⟨body, params⟩ => params.isEmpty && statementsPrintable body true
termination_by structural b => b

/-- Whether statements can be written, before a closing mark that begins with a brace or not. -/
def statementsPrintable : List Statement → Bool → Bool
  | [], _ => true
  | s :: ss, braceCloses =>
      s.isPrintable && s.fitsBefore braceCloses ss && statementsPrintable ss braceCloses
termination_by structural ss => ss
end

/-- Whether a template can be written: it has no parameters, which have no notation. -/
def Template.isPrintable (t : Template) : Bool :=
  t.params.isEmpty && statementsPrintable t.body false

end Bracework
