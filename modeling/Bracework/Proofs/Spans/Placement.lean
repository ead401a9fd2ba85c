/-
Spans — what it means that the nodes of a tree stand where their spans say.

A span counts bytes of a source.  It is worth something if its ends fall between
characters, if it lies within the span of the node around it, if the statements
of a list follow each other without a gap, if an else chain can be told from its
ends, and if the words that a node repeats from the source are the ones that stand
there.  `Template.SpansExact` is all five, for all nodes of a tree.

A tree does not say which blocks were written with an else mark: a chained block
and a block of its own behind a bare else mark are both all that there is to an
inverse.  Their spans are all that tells them apart, so it matters where they begin
and where they end.
-/
import Bracework.Template.Node
import Bracework.Template.Token

namespace Bracework

/-! ## Bytes of a source -/

/-- What is left of a text behind a number of bytes, if they end between two characters. -/
def afterBytes? : List Char → Nat → Option (List Char)
  | cs, 0 => some cs
  | [], _ + 1 => none
  | c :: cs, n + 1 => if c.utf8Size ≤ n + 1 then afterBytes? cs (n + 1 - c.utf8Size) else none

/-- Whether a number of bytes of a text ends between two characters. -/
def isBoundary (source : List Char) (offset : Nat) : Bool := (afterBytes? source offset).isSome

/-- The text that a span covers, if its ends are in order and fall between characters. -/
def Span.slice? (s : Span) (source : List Char) : Option (List Char) := do
  let rest ← afterBytes? source s.start
  let behind ← afterBytes? source s.stop
  if s.start ≤ s.stop then return rest.take (rest.length - behind.length) else .none

theorem afterBytes?_append (before rest : List Char) :
    afterBytes? (before ++ rest) (utf8Length before) = some rest := by
  induction before with
  | nil => cases rest <;> rfl
  | cons c cs ih =>
      have hpos := c.utf8Size_pos
      obtain ⟨n, hn⟩ : ∃ n, utf8Length (c :: cs) = n + 1 :=
        ⟨c.utf8Size + utf8Length cs - 1, by rw [utf8Length]; omega⟩
      rw [hn, List.cons_append, afterBytes?, ← hn, utf8Length, if_pos (Nat.le_add_right ..),
        Nat.add_sub_cancel_left, ih]

/-- A span between two texts covers the text between them. -/
theorem Span.slice?_append (before text behind : List Char) :
    Span.slice? ⟨utf8Length before, utf8Length (before ++ text)⟩ (before ++ (text ++ behind)) =
      some text := by
  have hstart := afterBytes?_append before (text ++ behind)
  have hstop := afterBytes?_append (before ++ text) behind
  rw [List.append_assoc] at hstop
  have hle : utf8Length before ≤ utf8Length (before ++ text) := by simp
  simp only [slice?, hstart, hstop, Option.bind_eq_bind, Option.bind_some, if_pos hle]
  simp

/-! ## Nodes -/

/-- The span of a node; a template and a block have none. -/
def Kind.span? : (k : Kind) → k.Node → Option Span
  | .template, _ => none
  | .block, _ => none
  | .element, e => some e.span
  | .attr, a => some a.span
  | .text, t => some t.span
  | .mustache, m => some m.span
  | .blockStatement, b => some b.span
  | .comment, c => some c.span
  | .path, p => some p.span
  | .subExpression, s => some s.span

/-- The words that a node repeats from its source. -/
def Kind.words? : (k : Kind) → k.Node → Option (List Char)
  | .text, t => some t.chars.toList
  | .path, p => some p.text.toList
  | _, _ => none

/-- The statements that a node has of its own. -/
def Kind.body : (k : Kind) → k.Node → List Statement
  | .template, t => t.body
  | .block, b => b.body
  | .element, e => e.children
  | _, _ => []

namespace Node

/-- The span of a node. -/
def span? (n : Node) : Option Span := n.kind.span? n.value

/-- The words that a node repeats from its source. -/
def words? (n : Node) : Option (List Char) := n.kind.words? n.value

/-- The statements that a node has of its own. -/
def body (n : Node) : List Statement := n.kind.body n.value

end Node

/-! ## Nodes with what is around them

Each node is listed with the span of the nearest node around it that has one. -/

mutual
def Expression.nodesIn : Expression → Option Span → List (Option Span × Node)
  | .path p, outer => [(outer, ⟨.path, p⟩)]
  | .literal _, _ => []
  | .sub c s, outer => (outer, ⟨.subExpression, ⟨c, s⟩⟩) :: c.nodesIn (some s)
termination_by structural e => e

def Call.nodesIn : Call → Option Span → List (Option Span × Node)
  | ⟨callee, params, hash⟩, outer =>
      callee.nodesIn outer ++ paramsNodesIn params outer ++ hashNodesIn hash outer
termination_by structural c => c

def paramsNodesIn : List Expression → Option Span → List (Option Span × Node)
  | [], _ => []
  | e :: es, outer => e.nodesIn outer ++ paramsNodesIn es outer
termination_by structural es => es

def hashNodesIn : List (String × Expression) → Option Span → List (Option Span × Node)
  | [], _ => []
  | (_, e) :: rest, outer => e.nodesIn outer ++ hashNodesIn rest outer
termination_by structural rest => rest
end

def Mustache.nodesIn (m : Mustache) (outer : Option Span) : List (Option Span × Node) :=
  (outer, ⟨.mustache, m⟩) :: m.call.nodesIn (some m.span)

def AttributePart.nodesIn (outer : Option Span) : AttributePart → List (Option Span × Node)
  | .text t => [(outer, ⟨.text, t⟩)]
  | .mustache m => m.nodesIn outer

def AttributeValue.nodesIn (outer : Option Span) : AttributeValue → List (Option Span × Node)
  | .text t => [(outer, ⟨.text, t⟩)]
  | .mustache m => m.nodesIn outer
  | .concat parts => parts.flatMap (AttributePart.nodesIn outer)

def Attribute.nodesIn (outer : Option Span) (a : Attribute) : List (Option Span × Node) :=
  (outer, ⟨.attr, a⟩) :: a.value.nodesIn (some a.span)

mutual
def Statement.nodesIn : Statement → Option Span → List (Option Span × Node)
  | .element e, outer => e.nodesIn outer
  | .text t, outer => [(outer, ⟨.text, t⟩)]
  | .mustache m, outer => m.nodesIn outer
  | .block b, outer => b.nodesIn outer
  | .comment c, outer => [(outer, ⟨.comment, c⟩)]
termination_by structural s => s

def Element.nodesIn : Element → Option Span → List (Option Span × Node)
  | ⟨tag, attributes, modifiers, children, selfClosing, span⟩, outer =>
      (outer, ⟨.element, ⟨tag, attributes, modifiers, children, selfClosing, span⟩⟩) ::
        (attributes.flatMap (Attribute.nodesIn (some span)) ++
          modifiers.flatMap (Mustache.nodesIn · (some span)) ++
          statementsNodesIn children (some span))
termination_by structural e => e

def BlockStatement.nodesIn : BlockStatement → Option Span → List (Option Span × Node)
  | ⟨call, program, inverse, span⟩, outer =>
      (outer, ⟨.blockStatement, ⟨call, program, inverse, span⟩⟩) ::
        (call.nodesIn (some span) ++ program.nodesIn (some span) ++
          inverseNodesIn inverse (some span))
termination_by structural b => b

def inverseNodesIn : Option Block → Option Span → List (Option Span × Node)
  | none, _ => []
  | some b, outer => b.nodesIn outer
termination_by structural b => b

def Block.nodesIn : Block → Option Span → List (Option Span × Node)
  | ⟨body, params⟩, outer =>
      (outer, ⟨.block, ⟨body, params⟩⟩) :: statementsNodesIn body outer
termination_by structural b => b

def statementsNodesIn : List Statement → Option Span → List (Option Span × Node)
  | [], _ => []
  | s :: ss, outer => s.nodesIn outer ++ statementsNodesIn ss outer
termination_by structural ss => ss
end

/-- The nodes of a template in document order, each with the nearest span around it. -/
def Template.nodesIn (t : Template) : List (Option Span × Node) :=
  (none, ⟨.template, t⟩) :: statementsNodesIn t.body none

/-! ## The same nodes in the same order -/

mutual
theorem Expression.map_nodesIn : (e : Expression) → (outer : Option Span) →
    (e.nodesIn outer).map Prod.snd = e.nodes
  | .path _, _ => rfl
  | .literal _, _ => rfl
  | .sub c s, _ => congrArg (_ :: ·) (Call.map_nodesIn c (some s))
theorem Call.map_nodesIn : (c : Call) → (outer : Option Span) →
    (c.nodesIn outer).map Prod.snd = c.nodes
  | ⟨callee, params, hash⟩, outer => by
      rw [Call.nodesIn, List.map_append, List.map_append, Expression.map_nodesIn callee,
        map_paramsNodesIn params, map_hashNodesIn hash, Call.nodes]
theorem map_paramsNodesIn : (es : List Expression) → (outer : Option Span) →
    (paramsNodesIn es outer).map Prod.snd = paramsNodes es
  | [], _ => rfl
  | e :: es, outer => by
      rw [paramsNodesIn, List.map_append, Expression.map_nodesIn e, map_paramsNodesIn es,
        paramsNodes]
theorem map_hashNodesIn : (hash : List (String × Expression)) → (outer : Option Span) →
    (hashNodesIn hash outer).map Prod.snd = hashNodes hash
  | [], _ => rfl
  | (_, e) :: rest, outer => by
      rw [hashNodesIn, List.map_append, Expression.map_nodesIn e, map_hashNodesIn rest, hashNodes]
end

theorem Mustache.map_nodesIn (m : Mustache) (outer : Option Span) :
    (m.nodesIn outer).map Prod.snd = m.nodes :=
  congrArg (_ :: ·) (Call.map_nodesIn m.call _)

theorem AttributePart.map_nodesIn (outer : Option Span) (p : AttributePart) :
    (p.nodesIn outer).map Prod.snd = p.nodes := by
  cases p with
  | text t => rfl
  | mustache m => exact m.map_nodesIn outer

theorem Attribute.map_nodesIn (outer : Option Span) (a : Attribute) :
    (a.nodesIn outer).map Prod.snd = a.nodes := by
  refine congrArg (_ :: ·) ?_
  cases a.value with
  | text t => rfl
  | mustache m => exact m.map_nodesIn _
  | concat parts =>
      rw [AttributeValue.nodesIn, List.map_flatMap, AttributeValue.nodes]
      exact congrArg (parts.flatMap ·) (funext fun p => p.map_nodesIn _)

mutual
theorem Statement.map_nodesIn : (s : Statement) → (outer : Option Span) →
    (s.nodesIn outer).map Prod.snd = s.nodes
  | .element e, outer => Element.map_nodesIn e outer
  | .text _, _ => rfl
  | .mustache m, outer => m.map_nodesIn outer
  | .block b, outer => BlockStatement.map_nodesIn b outer
  | .comment _, _ => rfl
theorem Element.map_nodesIn : (e : Element) → (outer : Option Span) →
    (e.nodesIn outer).map Prod.snd = e.nodes
  | ⟨tag, attributes, modifiers, children, selfClosing, span⟩, outer => by
      simp only [Element.nodesIn, List.map_cons, List.map_append, List.map_flatMap,
        Attribute.map_nodesIn, Mustache.map_nodesIn, map_statementsNodesIn children, Element.nodes]
theorem BlockStatement.map_nodesIn : (b : BlockStatement) → (outer : Option Span) →
    (b.nodesIn outer).map Prod.snd = b.nodes
  | ⟨call, program, inverse, span⟩, outer => by
      simp only [BlockStatement.nodesIn, List.map_cons, List.map_append, Call.map_nodesIn,
        Block.map_nodesIn program, map_inverseNodesIn inverse, BlockStatement.nodes]
theorem map_inverseNodesIn : (inverse : Option Block) → (outer : Option Span) →
    (inverseNodesIn inverse outer).map Prod.snd = inverseNodes inverse
  | none, _ => rfl
  | some b, outer => Block.map_nodesIn b outer
theorem Block.map_nodesIn : (b : Block) → (outer : Option Span) →
    (b.nodesIn outer).map Prod.snd = b.nodes
  | ⟨body, _⟩, outer => congrArg (_ :: ·) (map_statementsNodesIn body outer)
theorem map_statementsNodesIn : (ss : List Statement) → (outer : Option Span) →
    (statementsNodesIn ss outer).map Prod.snd = statementsNodes ss
  | [], _ => rfl
  | s :: ss, outer => by
      rw [statementsNodesIn, List.map_append, Statement.map_nodesIn s, map_statementsNodesIn ss,
        statementsNodes]
end

theorem Template.map_nodesIn (t : Template) : t.nodesIn.map Prod.snd = t.nodes :=
  congrArg (_ :: ·) (map_statementsNodesIn t.body none)

/-! ## Exact spans -/

/-- Statements cover the bytes from an offset to another, one after the other. -/
def Tiles : Nat → List Statement → Nat → Prop
  | start, [], stop => start = stop
  | start, s :: ss, stop => s.span.start = start ∧ Tiles s.span.stop ss stop

/-- A text of blanks only. -/
def IsBlank (text : List Char) : Prop := ∀ x ∈ text, CharClass.isSpace x = true

/-- A block that is all of the inverse of another one stands in a source in one of two ways, which
the else mark behind the program of the other tells apart.  It is chained: it begins with that
mark, which goes on with the head of the block, and ends where the other does.  Or it stands apart:
the mark closes at once, the block begins behind it with a mark of its own, and the other goes on
behind the block. -/
inductive BlockStatement.FollowedBy (source : List Char) (b inner : BlockStatement) : Prop
  | chained {start : Nat} {content : List Char} :
      Tiles start b.program.body inner.span.start →
      inner.span.slice? source = some (Token.elseOpen ++ content) →
      ¬ Token.mustacheClose <+: content.dropWhile CharClass.isSpace →
      inner.span.stop = b.span.stop → b.FollowedBy source inner
  | apart {start stop : Nat} {blanks content : List Char} :
      Tiles start b.program.body stop →
      Span.slice? ⟨stop, inner.span.start⟩ source =
        some (Token.elseOpen ++ blanks ++ Token.mustacheClose) → IsBlank blanks →
      inner.span.slice? source = some (Token.blockOpen ++ content) →
      inner.span.stop < b.span.stop → b.FollowedBy source inner

/-- The spans of a tree are where its nodes stand in a source. -/
structure Template.SpansExact (source : List Char) (t : Template) : Prop where
  /-- every span lies in the source and falls between characters at both ends -/
  inside : ∀ n ∈ t.nodes, ∀ s ∈ n.span?, s.start ≤ s.stop ∧ s.stop ≤ utf8Length source ∧
    isBoundary source s.start = true ∧ isBoundary source s.stop = true
  /-- every span lies within the nearest span around its node -/
  nested : ∀ p ∈ t.nodesIn, ∀ outer ∈ p.1, ∀ s ∈ p.2.span?,
    outer.start ≤ s.start ∧ s.stop ≤ outer.stop
  /-- the statements of the template cover all of the source -/
  covered : Tiles 0 t.body (utf8Length source)
  /-- the statements of a list follow each other without a gap -/
  tiled : ∀ n ∈ t.nodes, ∃ start stop, Tiles start n.body stop
  /-- a block that is all of an inverse is chained there, else mark and end included, or apart -/
  followed : ∀ b : BlockStatement, ⟨.blockStatement, b⟩ ∈ t.nodes → ∀ inner params,
    b.inverse = some ⟨[.block inner], params⟩ → b.FollowedBy source inner
  /-- what stands at the span of a path, and of a text that is not empty, is its words -/
  sliced : ∀ n ∈ t.nodes, ∀ words ∈ n.words?, n.kind = .path ∨ words ≠ [] →
    ∀ s ∈ n.span?, s.slice? source = some words

end Bracework
