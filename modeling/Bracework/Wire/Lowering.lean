/-
Wire programs — lowering a tree.

Lowering goes through a tree in document order and keeps the list of symbols
read so far: whenever a path is read, its head joins the list if it names an
argument and is not there yet.  The only way to fail is a call whose callee is
not a path.
-/
import Bracework.Template.Syntax
import Bracework.Wire.Program

namespace Bracework

/-- Why no program can be generated. -/
inductive GenerateFault where
  | calleeNoPath
  | described (message : String)
deriving DecidableEq, Repr

def GenerateFault.message : GenerateFault → String
  | .calleeNoPath => "callee must be a path expression"
  | .described message => message

/-- Lowering with the symbols read so far. -/
abbrev Lowering (α : Type) : Type := StateT (List String) (Except GenerateFault) α

namespace Lowering

/-- The symbols after one more head was read. -/
def noteSymbol (head : String) (symbols : List String) : List String :=
  if head.toList.head? == some '@' && !symbols.contains head then symbols ++ [head] else symbols

/-- Notes that a path is read. -/
def read (p : Path) : Lowering Unit := modify (noteSymbol p.head)

/-- A literal as an expression. -/
def literal : Literal → WireExpression
  | .string text => .literal (.string text)
  | .number value => .literal (.ofBinary64 value)
  | .boolean value => .literal (.bool value)
  | .null => .literal .null
  | .undefined => .undefined

mutual
def expression : Expression → Lowering WireExpression
  | .path p => do
      read p
      return .get p.text
  | .literal l => return literal l
  | .sub c _ => call c
termination_by structural e => e

/-- A call; the callee is read before the arguments. -/
def call : Call → Lowering WireExpression
  | ⟨.path p, params, hash⟩ => do
      read p
      let params ← parameters params
      let hash ← arguments hash
      return .call p.text params (Named.ofPairs hash)
  | ⟨.literal _, _, _⟩ => throw .calleeNoPath
  | ⟨.sub _ _, _, _⟩ => throw .calleeNoPath
termination_by structural c => c

def parameters : List Expression → Lowering (List WireExpression)
  | [] => return []
  | e :: es => return (← expression e) :: (← parameters es)
termination_by structural es => es

def arguments : List (String × Expression) → Lowering (List (String × WireExpression))
  | [] => return []
  | (key, e) :: rest => return (key, ← expression e) :: (← arguments rest)
termination_by structural rest => rest
end

/-- A mustache without arguments reads its callee, and one with arguments calls it. -/
def mustache (m : Mustache) : Lowering WireExpression :=
  if m.call.isBare then expression m.call.callee else call m.call

def part : AttributePart → Lowering WireExpression
  | .text t => return .literal (.string t.chars)
  | .mustache m => mustache m

def value : AttributeValue → Lowering WireExpression
  | .text t => return .literal (.string t.chars)
  | .mustache m => mustache m
  | .concat parts => return .concat (← parts.mapM part)

def attr (a : Attribute) : Lowering WireAttribute := return ⟨a.name, ← value a.value⟩

mutual
def statement : Statement → Lowering WireStatement
  | .text t => return .text t.chars
  | .comment c => return .comment c.value
  | .mustache m => return .append (← mustache m) m.trusting
  | .element e => element e
  | .block b => blockStatement b
termination_by structural s => s

def element : Element → Lowering WireStatement
  | ⟨tag, attributes, modifiers, children, _, _⟩ => do
      let attributes ← attributes.mapM attr
      let modifiers ← modifiers.mapM fun m => call m.call
      let children ← statements children
      return .element tag attributes modifiers children
termination_by structural e => e

def blockStatement : BlockStatement → Lowering WireStatement
  | ⟨c, program, inverse, _⟩ => do
      let c ← call c
      let program ← block program
      let inverse ← inverseBlock inverse
      return .block c program inverse
termination_by structural b => b

def inverseBlock : Option Block → Lowering (Option WireBlock)
  | none => return none
  | some b => return some (← block b)
termination_by structural b => b

/-- A nested block lists its own parameters and nothing else as its symbols. -/
def block : Block → Lowering WireBlock
  | ⟨body, params⟩ => return ⟨← statements body, params⟩
termination_by structural b => b

def statements : List Statement → Lowering (List WireStatement)
  | [] => return []
  | s :: ss => return (← statement s) :: (← statements ss)
termination_by structural ss => ss
end

end Lowering

/-- The block of a whole template.  Its symbols are the template's parameters
and then the named arguments read anywhere in it, in the order of first use. -/
def Template.lower (t : Template) : Except GenerateFault WireBlock :=
  match (Lowering.statements t.body).run t.params with
  | .error e => .error e
  | .ok (statements, symbols) => .ok ⟨statements, symbols⟩

end Bracework
