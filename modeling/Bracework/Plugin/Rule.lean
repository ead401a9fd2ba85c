/-
Plugins — plugins written as rules.

A rule says on which nodes it acts and what it does to them; an action that does
not fit a node leaves it alone.  A list of rules makes a plugin in either
convention.  As a factory, the rules for a kind are that kind's handler and the
rules for all nodes are the handler of the kinds that have no rule of their own.
As a transform, every rule acts on all nodes that it is for.  Rules tell what
they meet through a function that notes a line of text.
-/
import Bracework.Json.Text
import Bracework.Plugin.Reference
import Bracework.Template.Printer
import Bracework.Template.Tree

namespace Bracework

/-- What a rule does. -/
inductive RuleAction where
  | note
  | notePrint
  | noteContext
  | fail (message : String)
  | rename (label : String)
  | append (suffix : String)
  | literalCallee (text : String)
  | addParam (path : String)
  | clearArguments
  | renameKeys (key : String)
  | addAttribute (name value : String)
  | removeAttribute (name : String)
  | emptyConcat
  | pushText (chars : String)
  | drop (kind : Kind)
  | wrap (tag : String)
  | replace (source : String)
deriving DecidableEq, Repr

/-- An action, the kind it is for, or none for all nodes, and the label it asks for, if any. -/
structure Rule where
  kind? : Option Kind
  label? : Option String := none
  action : RuleAction
deriving DecidableEq, Repr

variable {m : Type → Type} [Monad m]

/-! ## Actions on one node -/

/-- Text made by hand. -/
def Statement.ofChars (chars : String) : Statement := .text ⟨chars, Span.none⟩

/-- An attribute made by hand. -/
def Attribute.ofText (name value : String) : Attribute := ⟨name, .text ⟨value, Span.none⟩, Span.none⟩

/-- An element without attributes around some statements. -/
def Element.around (tag : String) (children : List Statement) : Element :=
  ⟨tag, [], [], children, false, Span.none⟩

/-- The statements that a source is read as. -/
def parsedBody (source : String) : Except String (List Statement) :=
  match Template.parse source SourceContext.defaultName with
  | .ok t => .ok t.body
  | .error e => .error e.error.fault.message

/-- Does what a rule does to a node. -/
def RuleAction.run (note : String → m Unit) (c : PluginContext) :
    RuleAction → (k : Kind) → k.Node → Effect m k.Node
  | .note, k, n => do
      note ("visit " ++ k.name ++ " " ++ k.label n)
      return n
  | .notePrint, .template, t => do
      note ("print " ++ t.print)
      return t
  | .notePrint, _, n => return n
  | .noteContext, _, n => do
      note ("env " ++ c.toJson.compact)
      return n
  | .fail message, _, _ => throw message
  | .rename label, k, n => return k.relabel label n
  | .append suffix, k, n => return k.relabel (k.label n ++ suffix) n
  | .literalCallee text, k, n =>
      return k.mapCall (·.withCallee (.literal (.string text))) n
  | .addParam path, k, n =>
      return k.mapCall (fun c => { c with params := c.params ++ [.path ⟨path, Span.none⟩] }) n
  | .clearArguments, k, n => return k.mapCall (fun c => { c with params := [], hash := [] }) n
  | .renameKeys key, k, n =>
      return k.mapCall (fun c => { c with hash := c.hash.map fun (_, e) => (key, e) }) n
  | .addAttribute name value, .element, e =>
      return { e with attributes := e.attributes ++ [Attribute.ofText name value] }
  | .addAttribute .., _, n => return n
  | .removeAttribute name, .element, e => do
      let left := e.removeAttribute name
      note ("removed " ++ toString (e.attributes.length - left.attributes.length))
      return left
  | .removeAttribute _, _, n => return n
  | .emptyConcat, .attr, a => return { a with value := .concat [] }
  | .emptyConcat, _, n => return n
  | .pushText chars, k, n => return k.mapBody (· ++ [.ofChars chars]) n
  | .drop kind, k, n => return k.mapBody (·.filter (·.kind != kind)) n
  | .wrap tag, k, n => return k.mapBody (fun body => [.element (.around tag body)]) n
  | .replace source, k, n =>
      if k.hasBody then
        match parsedBody source with
        | .ok body => return k.mapBody (fun _ => body) n
        | .error message => throw message
      else return n

namespace Rule

/-- Acts on a node if its label is the one that the rule asks for. -/
def act (note : String → m Unit) (c : PluginContext) (r : Rule) (k : Kind) (n : k.Node) :
    Effect m k.Node :=
  if r.label?.all (· == k.label n) then r.action.run note c k n else return n

/-- The rules of a list, one after the other. -/
def actAll (note : String → m Unit) (c : PluginContext) (rules : List Rule) (k : Kind) (n : k.Node) :
    Effect m k.Node :=
  rules.foldlM (fun n r => r.act note c k n) n

/-! ## Plugins -/

/-- The rules of a list that are for a kind by name. -/
def forKind (rules : List Rule) (k : Kind) : List Rule := rules.filter (·.kind? == some k)

/-- The visitor of a list of rules. -/
def visitor (note : String → m Unit) (c : PluginContext) (rules : List Rule) : Visitor (Effect m) where
  on k := if (forKind rules k).isEmpty then none else some (actAll note c (forKind rules k) k)
  any :=
    let others := rules.filter (·.kind?.isNone)
    if others.isEmpty then none else some (actAll note c others)

/-- What a factory of rules builds under a name. -/
def build (note : String → m Unit) (name : String) (rules : List Rule) (c : PluginContext) :
    m (AstPlugin m) := do
  note ("construct " ++ name)
  return ⟨name, visitor note c rules⟩

/-- The type of the transforms of a list of rules. -/
def transformType (note : String → m Unit) (key defaultName : String) (rules : List Rule) :
    TransformType m where
  key := key
  defaultName := defaultName
  construct c := do
    note ("construct " ++ key)
    return fun t => t.visit fun k n =>
      actAll note c (rules.filter fun r => r.kind?.all (· == k)) k n

end Rule

end Bracework
