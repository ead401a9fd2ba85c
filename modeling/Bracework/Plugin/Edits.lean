/-
Plugins — the built-in plugins that change the tree.

Each is one small change of one node, `Attribute.unquoted`, `Path.withKeyword`,
`Element.withoutTestSelectors` and `withoutDebugStatements`, and a plugin that
makes the change everywhere in a tree.
-/
import Bracework.Plugin.Reference

namespace Bracework

variable {m : Type → Type} [Monad m]

/-! ## Quoted bindings -/

/-- A quoted value that is a single mustache needs no quotes. -/
def AttributeValue.unquoted : AttributeValue → AttributeValue
  | .concat [.mustache n] => .mustache n
  | v => v

def Attribute.unquoted (a : Attribute) : Attribute := { a with value := a.value.unquoted }

/-- Takes the quotes off attribute values that are a single mustache. -/
def quotedBindings : PluginRef m :=
  .factory 0 "transform-quoted-bindings" fun _ => pure
    { name := "transform-quoted-bindings"
      visitor := Visitor.handle {} .attr fun a => pure a.unquoted }

/-! ## Block keywords -/

/-- The spelling of the block keywords in lower case. -/
def blockKeyword? : String → Option String
  | "hasBlock" => some "has-block"
  | "hasBlockParams" => some "has-block-params"
  | _ => none

def Path.withKeyword (p : Path) : Path := { p with text := (blockKeyword? p.text).getD p.text }

/-- Spells the block keywords in lower case. -/
def blockKeywords : PluginRef m :=
  .factory 1 "transform-has-block-syntax" fun _ => pure
    { name := "transform-has-block-syntax"
      visitor := Visitor.handle {} .path fun p => pure p.withKeyword }

/-! ## Test selectors -/

/-- Whether an attribute is there for tests only. -/
def isTestSelector (name : String) : Bool :=
  name == "data-test" || "data-test-".toList.isPrefixOf name.toList

def Element.withoutTestSelectors (e : Element) : Element :=
  { e with attributes := e.attributes.filter fun a => !isTestSelector a.name }

/-- Drops the attributes that are there for tests only. -/
def testSelectors : PluginRef m :=
  .factory 2 "strip-test-selectors" fun _ => pure
    { name := "strip-test-selectors"
      visitor := Visitor.handle {} .element fun e => pure e.withoutTestSelectors }

/-! ## Debug statements -/

/-- Whether a statement is there for debugging only. -/
def Statement.isDebug : Statement → Bool
  | .mustache n => n.call.calleeText? == some "debugger" || n.call.calleeText? == some "log"
  | _ => false

/-- A list of statements without those that are there for debugging only. -/
def withoutDebugStatements (body : List Statement) : List Statement :=
  body.filter fun s => !s.isDebug

/-- Drops debug statements from every list of statements. -/
def debugStatements : TransformType m where
  key := "StripDebugStatements"
  defaultName := "StripDebugStatements"
  construct _ := pure fun t => t.visit fun k n => pure (k.mapBody withoutDebugStatements n)

def stripDebugStatements : PluginRef m := .transform debugStatements "strip-debug-statements"

end Bracework
