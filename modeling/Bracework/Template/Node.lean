/-
Templates — the nodes of a tree, by kind.

There are ten kinds of node, each with its own type.  `Template.nodes` lists
the nodes of a tree in document order: a node stands before its parts, and the
parts stand in the order in which they are written.
-/
import Bracework.Template.Syntax

namespace Bracework

/-- The kinds of node, in the order in which they are listed. -/
inductive Kind where
  | template
  | block
  | element
  | attr
  | text
  | mustache
  | blockStatement
  | comment
  | path
  | subExpression
deriving DecidableEq, Repr, Inhabited

namespace Kind

/-- All kinds, in order. -/
def all : List Kind :=
  [.template, .block, .element, .attr, .text, .mustache, .blockStatement, .comment, .path,
   .subExpression]

def name : Kind → String
  | .template => "Template"
  | .block => "Block"
  | .element => "ElementNode"
  | .attr => "AttrNode"
  | .text => "TextNode"
  | .mustache => "MustacheStatement"
  | .blockStatement => "BlockStatement"
  | .comment => "CommentStatement"
  | .path => "PathExpression"
  | .subExpression => "SubExpression"

/-- The kind with a name. -/
def ofName? (name : String) : Option Kind := all.find? (·.name == name)

/-- The type of the nodes of a kind. -/
@[reducible] def Node : Kind → Type
  | .template => Template
  | .block => Block
  | .element => Element
  | .attr => Attribute
  | .text => Text
  | .mustache => Mustache
  | .blockStatement => BlockStatement
  | .comment => Comment
  | .path => Path
  | .subExpression => SubExpression

/-- A short text that tells nodes of a kind apart: a name, a callee, or the text itself. -/
def label : (k : Kind) → k.Node → String
  | .template, t => " ".intercalate t.params
  | .block, b => " ".intercalate b.params
  | .element, e => e.tag
  | .attr, a => a.name
  | .text, t => t.chars
  | .mustache, m => m.call.calleeText?.getD ""
  | .blockStatement, b => b.call.calleeText?.getD ""
  | .comment, c => c.value
  | .path, p => p.text
  | .subExpression, s => s.call.calleeText?.getD ""

/-- A node with another label. -/
def relabel : (k : Kind) → String → k.Node → k.Node
  | .template, label, t => { t with params := [label] }
  | .block, label, b => { b with params := [label] }
  | .element, label, e => { e with tag := label }
  | .attr, label, a => { a with name := label }
  | .text, label, t => { t with chars := label }
  | .mustache, label, m => { m with call := m.call.withCallee (.path ⟨label, Span.none⟩) }
  | .blockStatement, label, b => { b with call := b.call.withCallee (.path ⟨label, Span.none⟩) }
  | .comment, label, c => { c with value := label }
  | .path, label, p => { p with text := label }
  | .subExpression, label, s => { s with call := s.call.withCallee (.path ⟨label, Span.none⟩) }

/-- A node with its own call, if it has one, changed. -/
def mapCall (f : Call → Call) : (k : Kind) → k.Node → k.Node
  | .mustache, m => { m with call := f m.call }
  | .blockStatement, b => { b with call := f b.call }
  | .subExpression, s => { s with call := f s.call }
  | .template, n => n
  | .block, n => n
  | .element, n => n
  | .attr, n => n
  | .text, n => n
  | .comment, n => n
  | .path, n => n

/-- Whether nodes of a kind have statements of their own. -/
def hasBody : Kind → Bool
  | .template => true
  | .block => true
  | .element => true
  | _ => false

/-- A node with its own statements, if it has any, changed. -/
def mapBody (f : List Statement → List Statement) : (k : Kind) → k.Node → k.Node
  | .template, t => { t with body := f t.body }
  | .block, b => { b with body := f b.body }
  | .element, e => { e with children := f e.children }
  | .attr, n => n
  | .text, n => n
  | .mustache, n => n
  | .blockStatement, n => n
  | .comment, n => n
  | .path, n => n
  | .subExpression, n => n

end Kind

/-- The kind of node that a statement is. -/
def Statement.kind : Statement → Kind
  | .element _ => .element
  | .text _ => .text
  | .mustache _ => .mustache
  | .block _ => .blockStatement
  | .comment _ => .comment

/-- A node of any kind. -/
structure Node where
  kind : Kind
  value : kind.Node

/-! ## Nodes in document order -/

mutual
def Expression.nodes : Expression → List Node
  | .path p => [⟨.path, p⟩]
  | .literal _ => []
  | .sub c s => ⟨.subExpression, ⟨c, s⟩⟩ :: c.nodes
termination_by structural e => e

/-- The nodes of the callee, of the positional and of the named arguments. -/
def Call.nodes : Call → List Node
  | ⟨callee, params, hash⟩ => callee.nodes ++ paramsNodes params ++ hashNodes hash
termination_by structural c => c

def paramsNodes : List Expression → List Node
  | [] => []
  | e :: es => e.nodes ++ paramsNodes es
termination_by structural es => es

def hashNodes : List (String × Expression) → List Node
  | [] => []
  | (_, e) :: rest => e.nodes ++ hashNodes rest
termination_by structural rest => rest
end

def Mustache.nodes (m : Mustache) : List Node := ⟨.mustache, m⟩ :: m.call.nodes

def AttributePart.nodes : AttributePart → List Node
  | .text t => [⟨.text, t⟩]
  | .mustache m => m.nodes

def AttributeValue.nodes : AttributeValue → List Node
  | .text t => [⟨.text, t⟩]
  | .mustache m => m.nodes
  | .concat parts => parts.flatMap AttributePart.nodes

def Attribute.nodes (a : Attribute) : List Node := ⟨.attr, a⟩ :: a.value.nodes

mutual
def Statement.nodes : Statement → List Node
  | .element e => e.nodes
  | .text t => [⟨.text, t⟩]
  | .mustache m => m.nodes
  | .block b => b.nodes
  | .comment c => [⟨.comment, c⟩]
termination_by structural s => s

def Element.nodes : Element → List Node
  | ⟨tag, attributes, modifiers, children, selfClosing, span⟩ =>
      ⟨.element, ⟨tag, attributes, modifiers, children, selfClosing, span⟩⟩ ::
        (attributes.flatMap Attribute.nodes ++ modifiers.flatMap Mustache.nodes ++
          statementsNodes children)
termination_by structural e => e

def BlockStatement.nodes : BlockStatement → List Node
  | ⟨call, program, inverse, span⟩ =>
      ⟨.blockStatement, ⟨call, program, inverse, span⟩⟩ ::
        (call.nodes ++ program.nodes ++ inverseNodes inverse)
termination_by structural b => b

def inverseNodes : Option Block → List Node
  | none => []
  | some b => b.nodes
termination_by structural b => b

def Block.nodes : Block → List Node
  | ⟨body, params⟩ => ⟨.block, ⟨body, params⟩⟩ :: statementsNodes body
termination_by structural b => b

def statementsNodes : List Statement → List Node
  | [] => []
  | s :: ss => s.nodes ++ statementsNodes ss
termination_by structural ss => ss
end

/-- The nodes of a template in document order. -/
def Template.nodes (t : Template) : List Node := ⟨.template, t⟩ :: statementsNodes t.body

/-! ## Size

The number of nodes, calls and literals: an upper bound of the nesting. -/

mutual
def Expression.size : Expression → Nat
  | .path _ => 1
  | .literal _ => 1
  | .sub c _ => c.size + 1
termination_by structural e => e

def Call.size : Call → Nat
  | ⟨callee, params, hash⟩ => callee.size + paramsSize params + hashSize hash + 1
termination_by structural c => c

def paramsSize : List Expression → Nat
  | [] => 0
  | e :: es => e.size + paramsSize es
termination_by structural es => es

def hashSize : List (String × Expression) → Nat
  | [] => 0
  | (_, e) :: rest => e.size + hashSize rest
termination_by structural rest => rest
end

def Mustache.size (m : Mustache) : Nat := m.call.size + 1

def AttributePart.size : AttributePart → Nat
  | .text _ => 1
  | .mustache m => m.size + 1

def AttributeValue.size : AttributeValue → Nat
  | .text _ => 1
  | .mustache m => m.size + 1
  | .concat parts => parts.foldr (fun p n => p.size + n) 0 + 1

def Attribute.size (a : Attribute) : Nat := a.value.size + 1

mutual
def Statement.size : Statement → Nat
  | .element e => e.size + 1
  | .text _ => 1
  | .mustache m => m.size + 1
  | .block b => b.size + 1
  | .comment _ => 1
termination_by structural s => s

def Element.size : Element → Nat
  | ⟨_, attributes, modifiers, children, _, _⟩ =>
      attributes.foldr (fun a n => a.size + n) 0 + modifiers.foldr (fun m n => m.size + n) 0 +
        statementsSize children + 1
termination_by structural e => e

def BlockStatement.size : BlockStatement → Nat
  | ⟨call, program, inverse, _⟩ => call.size + program.size + inverseSize inverse + 1
termination_by structural b => b

def inverseSize : Option Block → Nat
  | none => 0
  | some b => b.size
termination_by structural b => b

def Block.size : Block → Nat
  | ⟨body, _⟩ => statementsSize body + 1
termination_by structural b => b

def statementsSize : List Statement → Nat
  | [] => 0
  | s :: ss => s.size + statementsSize ss
termination_by structural ss => ss
end

def Template.size (t : Template) : Nat := statementsSize t.body + 1

end Bracework
