/-
Templates — the tree of a template.

A template is a list of statements: text, comments, elements with attributes
and modifiers, and the two curly forms, which both carry a call.  A call is an
expression in head position with positional parameters and named arguments; a
block statement adds a program and, possibly, an inverse.  Nodes read from a
source remember the bytes they came from; nodes made by hand have an empty span.
-/
import Bracework.Number.Binary64
import Bracework.Text.Utf8

namespace Bracework

/-- The bytes of a source from `start` up to, not including, `stop`. -/
structure Span where
  start : Nat
  stop : Nat
deriving DecidableEq, Repr, Inhabited

namespace Span

/-- The span of a node that comes from no source. -/
def none : Span := ⟨0, 0⟩

/-- The number of bytes; a reversed span has none. -/
def length (s : Span) : Nat := s.stop - s.start

def isEmpty (s : Span) : Bool := s.start ≥ s.stop

end Span

/-! ## Expressions -/

/-- A dotted path such as `this.name` or `@arg.field`. -/
structure Path where
  text : String
  span : Span := Span.none
deriving DecidableEq, Repr, Inhabited

namespace Path

/-- The segments of a path, between its dots. -/
def segments (p : Path) : List (List Char) := cutAt '.' p.text.toList

/-- The text before the first dot. -/
def head (p : Path) : String := String.ofList (p.text.toList.takeWhile (· != '.'))

/-- The segments after the first. -/
def tail (p : Path) : List String := p.segments.tail.map String.ofList

/-- Whether the path refers to a named argument. -/
def isNamedArgument (p : Path) : Bool := p.text.toList.head? == some '@'

/-- Whether the path starts at the current context. -/
def isThis (p : Path) : Bool := p.head == "this"

end Path

/-- A value written in the template itself. -/
inductive Literal where
  | string (text : String)
  | number (value : Binary64)
  | boolean (value : Bool)
  | null
  | undefined
deriving DecidableEq, Repr, Inhabited

mutual
/-- An expression: a path, a literal, or a call in parentheses. -/
inductive Expression where
  | path (path : Path)
  | literal (value : Literal)
  | sub (call : Call) (span : Span)
/-- An expression in head position with its positional and named arguments. -/
structure Call where
  callee : Expression
  params : List Expression
  hash : List (String × Expression)
end

instance : Inhabited Expression := ⟨.literal .null⟩
instance : Inhabited Call := ⟨⟨default, [], []⟩⟩

/-- A call in parentheses, as a node. -/
structure SubExpression where
  call : Call
  span : Span := Span.none
deriving Inhabited

namespace Expression

/-- The text of a path, nothing for any other expression. -/
def pathText? : Expression → Option String
  | .path p => some p.text
  | _ => none

end Expression

namespace Call

/-- The text of the callee when it is a path. -/
def calleeText? (c : Call) : Option String := c.callee.pathText?

/-- A call of another callee with the same arguments. -/
def withCallee (c : Call) (callee : Expression) : Call := { c with callee }

/-- The first named argument with a key. -/
def named? (c : Call) (key : String) : Option Expression := c.hash.lookup key

/-- Whether a call has no argument of either kind. -/
def isBare (c : Call) : Bool := c.params.isEmpty && c.hash.isEmpty

end Call

/-! ## Statements -/

/-- An expression written into the output; `trusting` means without escaping. -/
structure Mustache where
  call : Call
  trusting : Bool := false
  span : Span := Span.none
deriving Inhabited

/-- Literal text. -/
structure Text where
  chars : String
  span : Span := Span.none
deriving DecidableEq, Repr, Inhabited

/-- A comment of the markup or of the template. -/
structure Comment where
  value : String
  html : Bool := false
  span : Span := Span.none
deriving DecidableEq, Repr, Inhabited

/-- A piece of a quoted attribute value. -/
inductive AttributePart where
  | text (text : Text)
  | mustache (mustache : Mustache)
deriving Inhabited

/-- The value of an attribute. -/
inductive AttributeValue where
  | text (text : Text)
  | mustache (mustache : Mustache)
  | concat (parts : List AttributePart)
deriving Inhabited

/-- An attribute of an element. -/
structure Attribute where
  name : String
  value : AttributeValue
  span : Span := Span.none
deriving Inhabited

mutual
/-- A statement of a template, a block or an element. -/
inductive Statement where
  | element (element : Element)
  | text (text : Text)
  | mustache (mustache : Mustache)
  | block (block : BlockStatement)
  | comment (comment : Comment)
/-- An element with its attributes, modifiers and children. -/
structure Element where
  tag : String
  attributes : List Attribute
  modifiers : List Mustache
  children : List Statement
  selfClosing : Bool
  span : Span
/-- A block statement: a call, what it applies to, and what it applies to otherwise. -/
structure BlockStatement where
  call : Call
  program : Block
  inverse : Option Block
  span : Span
/-- A list of statements under block parameters. -/
structure Block where
  body : List Statement
  params : List String
end

instance : Inhabited Statement := ⟨.text default⟩
instance : Inhabited Block := ⟨⟨[], []⟩⟩
instance : Inhabited Element := ⟨⟨"", [], [], [], false, Span.none⟩⟩
instance : Inhabited BlockStatement := ⟨⟨default, default, none, Span.none⟩⟩

/-- A whole template. -/
structure Template where
  body : List Statement
  params : List String := []
deriving Inhabited

/-- The span of a statement. -/
def Statement.span : Statement → Span
  | .element e => e.span
  | .text t => t.span
  | .mustache m => m.span
  | .block b => b.span
  | .comment c => c.span

namespace Element

/-- The tags of elements that have no content. -/
def voidTags : List String :=
  ["area", "base", "br", "col", "embed", "hr", "img", "input", "link", "meta", "source",
   "track", "wbr"]

/-- Whether an element can have no content. -/
def isVoid (e : Element) : Bool := voidTags.contains e.tag

/-- The first attribute with a name. -/
def attribute? (e : Element) (name : String) : Option Attribute :=
  e.attributes.find? (·.name == name)

/-- The element without the attributes that have a name. -/
def removeAttribute (e : Element) (name : String) : Element :=
  { e with attributes := e.attributes.filter (·.name != name) }

end Element

end Bracework
