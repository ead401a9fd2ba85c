/-
Wire programs — the compiled form of a template, and its JSON.

A program is a block of statements with the symbols that it binds or reads.
Every statement and expression says in a member `op` what it is; members that
would be empty are left out, except where the reader of the program relies on
them.
-/
import Bracework.Json.Text
import Bracework.Text.Assoc

namespace Bracework

/-- A value to be computed. -/
inductive WireExpression where
  | get (path : String)
  | literal (value : Json)
  | undefined
  | call (path : String) (params : List WireExpression) (hash : List (String × WireExpression))
  | concat (parts : List WireExpression)
deriving Inhabited

/-- An attribute of a compiled element. -/
structure WireAttribute where
  name : String
  value : WireExpression
deriving Inhabited

mutual
/-- Something to be written out. -/
inductive WireStatement where
  | text (value : String)
  | append (expression : WireExpression) (trusting : Bool)
  | comment (value : String)
  | element (tag : String) (attributes : List WireAttribute) (modifiers : List WireExpression)
      (children : List WireStatement)
  | block (call : WireExpression) (program : WireBlock) (inverse : Option WireBlock)
/-- Statements with their symbols. -/
structure WireBlock where
  statements : List WireStatement
  symbols : List String
end

instance : Inhabited WireStatement := ⟨.text ""⟩
instance : Inhabited WireBlock := ⟨⟨[], []⟩⟩

/-- A compiled template. -/
structure CompiledTemplate where
  block : WireBlock
  moduleName : Option String
  isStrictMode : Bool
  metadata : Named Json
deriving Inhabited

/-! ## JSON -/

/-- A member, unless it would be empty. -/
def memberUnless (empty : Bool) (key : String) (value : Json) : List (String × Json) :=
  if empty then [] else [(key, value)]

mutual
def WireExpression.toJson : WireExpression → Json
  | .get path => .object [("op", .string "get"), ("path", .string path)]
  | .literal value => .object [("op", .string "literal"), ("value", value)]
  | .undefined => .object [("op", .string "undefined")]
  | .call path params hash =>
      .object ([("op", .string "call"), ("path", .string path),
        ("params", .array (wireParamsJson params))] ++
        memberUnless hash.isEmpty "hash" (.object (wireHashJson hash)))
  | .concat parts => .object [("op", .string "concat"), ("parts", .array (wireParamsJson parts))]
termination_by structural e => e

def wireParamsJson : List WireExpression → List Json
  | [] => []
  | e :: es => e.toJson :: wireParamsJson es
termination_by structural es => es

def wireHashJson : List (String × WireExpression) → List (String × Json)
  | [] => []
  | (key, e) :: rest => (key, e.toJson) :: wireHashJson rest
termination_by structural rest => rest
end

def WireAttribute.toJson (a : WireAttribute) : Json :=
  .object [("name", .string a.name), ("value", a.value.toJson)]

mutual
def WireStatement.toJson : WireStatement → Json
  | .text value => .object [("op", .string "text"), ("value", .string value)]
  | .append e trusting =>
      .object [("op", .string "append"), ("expr", e.toJson), ("trusting", .bool trusting)]
  | .comment value => .object [("op", .string "comment"), ("value", .string value)]
  | .element tag attributes modifiers children =>
      .object ([("op", .string "element"), ("tag", .string tag),
        ("attrs", .array (attributes.map WireAttribute.toJson))] ++
        memberUnless modifiers.isEmpty "modifiers" (.array (modifiers.map WireExpression.toJson)) ++
        [("children", .array (wireStatementsJson children))])
  | .block call program inverse =>
      .object ([("op", .string "block"), ("call", call.toJson), ("program", program.toJson)] ++
        wireInverseJson inverse)
termination_by structural s => s

def WireBlock.toJson : WireBlock → Json
  | ⟨statements, symbols⟩ =>
      .object [("statements", .array (wireStatementsJson statements)),
        ("symbols", .array (symbols.map .string))]
termination_by structural b => b

def wireInverseJson : Option WireBlock → List (String × Json)
  | none => []
  | some b => [("inverse", b.toJson)]
termination_by structural b => b

def wireStatementsJson : List WireStatement → List Json
  | [] => []
  | s :: ss => s.toJson :: wireStatementsJson ss
termination_by structural ss => ss
end

namespace CompiledTemplate

def toJson (t : CompiledTemplate) : Json :=
  .object ([("block", t.block.toJson)] ++
    (match t.moduleName with
      | some name => [("moduleName", .string name)]
      | none => []) ++
    [("isStrictMode", .bool t.isStrictMode)] ++
    memberUnless t.metadata.isEmpty "meta" (.object t.metadata))

/-- The compiled template as indented JSON text. -/
def print (t : CompiledTemplate) : String := t.toJson.indented

end CompiledTemplate

end Bracework
