/-
Canonical trees — the rules of trees that come from a source.

A reader cannot give back every tree that could be built.  It has no notation
for parameters of a template or of an inverse, it never leaves two texts side by
side where one would do, and a name ends where a character cannot belong to it.
As with the rules of validity there is one rule for each kind of node, which
looks at the node and at what it lists itself; a tree is canonical if the rule
of its kind holds for every node of it.
-/
import Bracework.Proofs.Printing.Printable
import Bracework.Proofs.Traversal.Rules

namespace Bracework

/-! ## Calls -/

/-- Whether an expression is no string that has both kinds of quote in it. -/
def Expression.leavesQuote : Expression → Bool
  | .literal (.string text) => !(text.toList.contains '"' && text.toList.contains '\'')
  | _ => true

/-- The rule of calls: named arguments have names, and every string can be put between quotes. -/
def Call.isCanonical (c : Call) : Bool :=
  c.callee.leavesQuote && c.params.all Expression.leavesQuote &&
    c.hash.all fun argument => isArgumentName argument.1 && argument.2.leavesQuote

/-! ## Attributes -/

/-- Whether a piece of a value can stand before others: a text has characters, none of them
opens a mustache, and it does not run into the piece behind it. -/
def AttributePart.fitsBefore : AttributePart → List AttributePart → Bool
  | .mustache _, _ => true
  | .text t, parts =>
      !t.chars.isEmpty && !Token.occursIn Token.mustacheOpen t.chars.toList &&
        match parts with
        | [] => true
        | .text _ :: _ => false
        | .mustache _ :: _ => !Token.endsWithBrace t.chars.toList

/-- Whether every piece of a value can stand before those behind it. -/
def partsCanonical : List AttributePart → Bool
  | [] => true
  | part :: parts => part.fitsBefore parts && partsCanonical parts

/-- The rule of values: a value in pieces has a mustache among them. -/
def AttributeValue.isCanonical : AttributeValue → Bool
  | .text _ => true
  | .mustache _ => true
  | .concat parts => parts.any AttributePart.isMustache && partsCanonical parts

/-- The rule of attributes: the name is one, and is not taken for a modifier. -/
def Attribute.isCanonical (a : Attribute) : Bool :=
  isAttributeName a.name && !Token.mustacheOpen.isPrefixOf a.name.toList && a.value.isCanonical

/-! ## Lists of statements -/

/-- Whether a statement is no text that is empty or in which something else would begin. -/
def Statement.isPlain : Statement → Bool
  | .text t => t.isPrintable
  | _ => true

/-- The rule of lists of statements, before a closing mark that begins with a brace or not:
texts are plain, stand apart, and do not run into a mark behind them. -/
def bodyCanonical (braceCloses : Bool) : List Statement → Bool
  | [] => true
  | s :: ss => s.isPlain && s.fitsBefore braceCloses ss && bodyCanonical braceCloses ss

/-! ## Nodes -/

/-- The rule of inverses: they have no parameters. -/
def inverseCanonical : Option Block → Bool
  | none => true
  | some b => b.params.isEmpty

/-- The rule of a kind of node. -/
def Kind.isCanonical : (k : Kind) → k.Node → Bool
  | .template, t => t.params.isEmpty && bodyCanonical false t.body
  | .block, b => b.params.all isArgumentName && bodyCanonical true b.body
  | .element, e =>
      isPrintableTag e.tag && (!(e.selfClosing || e.isVoid) || e.children.isEmpty) &&
        bodyCanonical false e.children
  | .attr, a => a.isCanonical
  | .text, _ => true
  | .mustache, m => m.call.isCanonical
  | .blockStatement, b => b.call.isCanonical && inverseCanonical b.inverse
  | .comment, c => c.isPrintable
  | .path, p => p.isPrintable
  | .subExpression, s => s.call.isCanonical

/-- Whether the rule of its kind holds for a node. -/
def Node.isCanonical (n : Node) : Bool := n.kind.isCanonical n.value

end Bracework
