/-
Templates — walking a tree with handlers.

A visitor has at most one handler for each kind of node and possibly one for
the kinds without.  A traversal calls the handler of a node before it goes on
to the node's parts, and it goes on to the parts of the node that the handler
gave back: a handler may change or drop parts before they are seen.  Handlers
run in a monad of the caller's choice, so they may fail and may keep state.

A handler that keeps adding levels below its node would never let a traversal
end.  So a traversal goes down a limited number of levels: as many as the tree
has, and `Visitor.allowance` more for what handlers add.
-/
import Bracework.Template.Node

namespace Bracework

/-- Handlers for nodes, by kind. -/
structure Visitor (m : Type → Type) where
  on : (k : Kind) → Option (k.Node → m k.Node) := fun _ => none
  any : Option ((k : Kind) → k.Node → m k.Node) := none

namespace Visitor

variable {m : Type → Type}

/-- The visitor with this handler for a kind, in place of any other for it. -/
def handle (v : Visitor m) (k : Kind) (h : k.Node → m k.Node) : Visitor m :=
  { v with on := fun k' => if e : k = k' then some (e ▸ h) else v.on k' }

/-- The visitor with this handler for the kinds that have none of their own. -/
def otherwise (v : Visitor m) (h : (k : Kind) → k.Node → m k.Node) : Visitor m :=
  { v with any := some h }

/-- The kinds that have a handler of their own, in order. -/
def kinds (v : Visitor m) : List Kind := Kind.all.filter fun k => (v.on k).isSome

/-- Whether a visitor has no handler at all. -/
def isEmpty (v : Visitor m) : Bool := v.kinds.isEmpty && v.any.isNone

/-- The number of levels that handlers may add along one branch. -/
def allowance : Nat := 10000

variable [Monad m]

/-- Calls the handler for a node, if there is one. -/
def enter (v : Visitor m) (k : Kind) (n : k.Node) : m k.Node :=
  match v.on k with
  | some h => h n
  | none => match v.any with
    | some h => h k n
    | none => pure n

/-! ## Expressions -/

mutual
def expression (v : Visitor m) : Nat → Expression → m Expression
  | 0, e => pure e
  | _ + 1, .literal l => pure (.literal l)
  | _ + 1, .path p => return .path (← v.enter .path p)
  | depth + 1, .sub c s => do
      let n ← v.enter .subExpression ⟨c, s⟩
      return .sub (← v.call depth n.call) n.span

/-- The callee, then the positional arguments, then the named ones. -/
def call (v : Visitor m) : Nat → Call → m Call
  | 0, c => pure c
  | depth + 1, c => do
      let callee ← v.expression depth c.callee
      let params ← c.params.mapM (v.expression depth)
      let hash ← c.hash.mapM fun (key, e) => return (key, ← v.expression depth e)
      return ⟨callee, params, hash⟩
end

/-! ## Attributes -/

def mustache (v : Visitor m) (depth : Nat) (n : Mustache) : m Mustache := do
  let n ← v.enter .mustache n
  return { n with call := ← v.call depth n.call }

def part (v : Visitor m) (depth : Nat) : AttributePart → m AttributePart
  | .text t => return .text (← v.enter .text t)
  | .mustache n => return .mustache (← v.mustache depth n)

def value (v : Visitor m) (depth : Nat) : AttributeValue → m AttributeValue
  | .text t => return .text (← v.enter .text t)
  | .mustache n => return .mustache (← v.mustache depth n)
  | .concat parts => return .concat (← parts.mapM (v.part depth))

def attr (v : Visitor m) (depth : Nat) (n : Attribute) : m Attribute := do
  let n ← v.enter .attr n
  return { n with value := ← v.value depth n.value }

/-! ## Statements -/

mutual
def statement (v : Visitor m) : Nat → Statement → m Statement
  | 0, s => pure s
  | depth + 1, .element e => do
      let e ← v.enter .element e
      let attributes ← e.attributes.mapM (v.attr depth)
      let modifiers ← e.modifiers.mapM (v.mustache depth)
      let children ← e.children.mapM (v.statement depth)
      return .element ⟨e.tag, attributes, modifiers, children, e.selfClosing, e.span⟩
  | _ + 1, .text t => return .text (← v.enter .text t)
  | depth + 1, .mustache n => return .mustache (← v.mustache depth n)
  | depth + 1, .block b => do
      let b ← v.enter .blockStatement b
      let call ← v.call depth b.call
      let program ← v.block depth b.program
      let inverse ← match b.inverse with
        | none => pure none
        | some i => some <$> v.block depth i
      return .block ⟨call, program, inverse, b.span⟩
  | _ + 1, .comment c => return .comment (← v.enter .comment c)

def block (v : Visitor m) : Nat → Block → m Block
  | 0, b => pure b
  | depth + 1, b => do
      let b ← v.enter .block b
      return { b with body := ← b.body.mapM (v.statement depth) }
end

/-- Walks a template in document order. -/
def traverse (v : Visitor m) (t : Template) : m Template := do
  let t ← v.enter .template t
  return { t with body := ← t.body.mapM (v.statement (t.size + allowance)) }

end Visitor

/-- Walks a template with one handler for all nodes. -/
def Template.visit {m : Type → Type} [Monad m] (t : Template)
    (h : (k : Kind) → k.Node → m k.Node) : m Template :=
  Visitor.traverse { any := some h } t

/-- The kinds of the nodes in the order in which a traversal meets them. -/
def Template.visitedKinds (t : Template) : List Kind :=
  ((t.visit fun k n => do modify (k :: ·); return n : StateM (List Kind) Template).run []).2.reverse

end Bracework
