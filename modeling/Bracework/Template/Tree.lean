/-
Templates — a tree from a sequence of items.

The open elements and blocks form a stack.  A mark is judged by the innermost
open frame alone; closing a frame turns it and the statements collected since
it was opened into one statement of the frame below.  The blocks of an else
chain share one closing mark, so they share one frame.
-/
import Bracework.Template.Item

namespace Bracework

/-- A block of an else chain whose program is complete. -/
structure ChainLink where
  head : BlockHead
  program : List Statement

/-- Something that is open: an element, or a block in its program or inverse.
`name` is what the closing mark must say; `outer` are the blocks of the chain
around the current one, innermost first. -/
inductive Frame where
  | element (tag : OpeningTag)
  | program (name : String) (outer : List ChainLink) (head : BlockHead)
  | inverse (name : String) (outer : List ChainLink) (head : BlockHead) (program : List Statement)

/-- The state of the construction: the statements of the innermost frame, last
first, and the open frames, each with the statements before it. -/
structure Outline where
  done : List Statement := []
  frames : List (Frame × List Statement) := []

namespace BlockHead

/-- The block statement with this head. -/
def close (head : BlockHead) (program : List Statement) (inverse : Option Block) (stop : Nat) :
    BlockStatement :=
  ⟨head.call, ⟨program, head.params⟩, inverse, ⟨head.start, stop⟩⟩

/-- The name that a closing mark must give; a callee that is no path has none. -/
def name (head : BlockHead) : String := head.call.calleeText?.getD ""

end BlockHead

/-- The element of an opening tag, with its content. -/
def OpeningTag.close (tag : OpeningTag) (children : List Statement) (stop : Nat) : Element :=
  ⟨tag.tag, tag.attributes, tag.modifiers, children, tag.selfClosing, ⟨tag.span.start, stop⟩⟩

/-- Whether an opening tag is an element all by itself. -/
def OpeningTag.isWhole (tag : OpeningTag) : Bool :=
  tag.selfClosing || Element.voidTags.contains tag.tag

/-- A block together with the blocks of its chain around it: each is the only
statement of the inverse of the next. -/
def closeChain (block : BlockStatement) (outer : List ChainLink) (stop : Nat) : BlockStatement :=
  outer.foldl (fun inner link => link.head.close link.program (some ⟨[.block inner], []⟩) stop) block

namespace Outline

/-- Adds a statement to the innermost frame. -/
def add (o : Outline) (s : Statement) : Outline := { o with done := s :: o.done }

/-- Opens a frame. -/
def push (o : Outline) (f : Frame) : Outline := ⟨[], (f, o.done) :: o.frames⟩

/-- The statements of the innermost frame in order. -/
def body (o : Outline) : List Statement := o.done.reverse

/-- The error of a block that is still open. -/
def unclosedBlock (name : String) (head : BlockHead) (stop : Nat) : ParseError :=
  ⟨.unclosedBlock name, ⟨head.start, stop⟩⟩

/-- A closing tag ends the innermost frame if that is an element of its name. -/
def closeTag (o : Outline) (name : String) (span : Span) : Reading Outline :=
  match o.frames with
  | [] => .error (Cursor.unexpected (.closingTag name) span)
  | (.element tag, before) :: frames =>
      if name = tag.tag then .ok ⟨.element (tag.close o.body span.stop) :: before, frames⟩
      else .error ⟨.mismatchedClose tag.tag name, span⟩
  | (.program block _ _, _) :: _ =>
      .error (Cursor.unexpected (.closingTagInBlock name block) span)
  | (.inverse block _ head _, _) :: _ => .error (unclosedBlock block head span.stop)

/-- An else mark ends the program of the innermost frame. -/
def divide (o : Outline) (chained : Option BlockHead) (span : Span) : Reading Outline :=
  match o.frames with
  | [] => .error (Cursor.unexpected .elseOutsideBlock span)
  | (.element tag, _) :: _ => .error (Cursor.unexpected (.elseInElement tag.tag) span)
  | (.program name outer head, before) :: frames =>
      match chained with
      | none => .ok ⟨[], (.inverse name outer head o.body, before) :: frames⟩
      | some inner => .ok ⟨[], (.program name (⟨head, o.body⟩ :: outer) inner, before) :: frames⟩
  | (.inverse name _ head _, _) :: _ => .error (unclosedBlock name head span.stop)

/-- A closing mark ends the innermost frame if that is a block of its name. -/
def closeBlock (o : Outline) (found : String) (span : Span) : Reading Outline :=
  match o.frames with
  | [] => .error (Cursor.unexpected (.closingBlock found) span)
  | (.element tag, _) :: _ => .error (Cursor.unexpected (.closingBlockInElement found tag.tag) span)
  | (.program name outer head, before) :: frames =>
      if name = found then
        .ok ⟨.block (closeChain (head.close o.body none span.stop) outer span.stop) :: before, frames⟩
      else .error (Cursor.unexpected (.wrongBlockClose found name) span)
  | (.inverse name outer head program, before) :: frames =>
      if name = found then
        .ok ⟨.block (closeChain (head.close program (some ⟨o.body, []⟩) span.stop) outer span.stop) ::
          before, frames⟩
      else .error (Cursor.unexpected (.wrongBlockClose found name) span)

/-- Takes one item into account. -/
def step (o : Outline) : Item → Reading Outline
  | .leaf s => .ok (o.add s)
  | .openTag tag =>
      if tag.isWhole then .ok (o.add (.element (tag.close [] tag.span.stop)))
      else .ok (o.push (.element tag))
  | .closeTag name span => o.closeTag name span
  | .openBlock head => .ok (o.push (.program head.name [] head))
  | .elseMark chained span => o.divide chained span
  | .closeBlock name span => o.closeBlock name span

/-- Takes items into account in order. -/
def steps (o : Outline) : List Item → Reading Outline
  | [] => .ok o
  | i :: is => match o.step i with
    | .error e => .error e
    | .ok o => o.steps is

/-- The statements of a source of which nothing may be open at its end. -/
def finish (o : Outline) (limit : Nat) : Reading (List Statement) :=
  match o.frames with
  | [] => .ok o.body
  | (.element tag, _) :: _ => .error ⟨.unclosedElement tag.tag, ⟨tag.span.start, limit⟩⟩
  | (.program name _ head, _) :: _ => .error (unclosedBlock name head limit)
  | (.inverse name _ head _, _) :: _ => .error (unclosedBlock name head limit)

end Outline

/-! ## Reading a template -/

/-- The template that a source denotes, or its first error. -/
def Template.ofChars (source : List Char) : Reading Template :=
  let scan := Scan.run (Cursor.ofChars source)
  match Outline.steps {} scan.items with
  | .error e => .error e
  | .ok o => match scan.fault with
    | some e => .error e
    | none => (o.finish (utf8Length source)).map fun body => ⟨body, []⟩

/-- The template that a source denotes, or its first error, naming the source. -/
def Template.parse (source : String) (filename : String) : Except SourceError Template :=
  match Template.ofChars source.toList with
  | .ok t => .ok t
  | .error e => .error ⟨e, ⟨source, filename⟩⟩

/-- The name of a source that has none of its own. -/
def SourceContext.defaultName : String := "template.hbs"

end Bracework
