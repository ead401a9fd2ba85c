/-
Templates — writing a tree as template text.

One canonical form: attribute values in double quotes, arguments one blank
apart, comments in their long form, an inverse after a bare else mark.  A
template written this way reads back as the same tree, spans apart, whenever
the tree can be written at all.
-/
import Bracework.Number.Layout
import Bracework.Template.Syntax
import Bracework.Template.Token

namespace Bracework

/-! ## Expressions -/

/-- A string in double quotes, or in single quotes when it holds a double quote. -/
def Literal.quote (text : String) : List Char :=
  let mark := if text.toList.contains '"' then '\'' else '"'
  mark :: (text.toList ++ [mark])

/-- The text of a literal. -/
def Literal.source : Literal → List Char
  | .string text => quote text
  | .number value => value.numeral
  | .boolean true => ['t', 'r', 'u', 'e']
  | .boolean false => ['f', 'a', 'l', 's', 'e']
  | .null => ['n', 'u', 'l', 'l']
  | .undefined => ['u', 'n', 'd', 'e', 'f', 'i', 'n', 'e', 'd']

mutual
/-- The text of an expression. -/
def Expression.source : Expression → List Char
  | .path p => p.text.toList
  | .literal l => l.source
  | .sub c _ => '(' :: (c.source ++ [')'])
termination_by structural e => e

/-- The text of a call: its callee and its arguments. -/
def Call.source : Call → List Char
  | ⟨callee, params, hash⟩ => callee.source ++ paramsSource params ++ hashSource hash
termination_by structural c => c

/-- Positional arguments, each after a blank. -/
def paramsSource : List Expression → List Char
  | [] => []
  | e :: es => ' ' :: (e.source ++ paramsSource es)
termination_by structural es => es

/-- Named arguments, each after a blank. -/
def hashSource : List (String × Expression) → List Char
  | [] => []
  | (key, value) :: rest => ' ' :: (key.toList ++ '=' :: (value.source ++ hashSource rest))
termination_by structural rest => rest
end

/-- An expression as template text. -/
def Expression.print (e : Expression) : String := String.ofList e.source

/-! ## Statements -/

/-- The text of a mustache. -/
def Mustache.source (m : Mustache) : List Char :=
  if m.trusting then Token.trustingOpen ++ m.call.source ++ Token.trustingClose
  else Token.mustacheOpen ++ m.call.source ++ Token.mustacheClose

/-- The text of a comment. -/
def Comment.source (c : Comment) : List Char :=
  if c.html then Token.commentOpen ++ c.value.toList ++ Token.commentClose
  else Token.longRemarkOpen ++ c.value.toList ++ Token.longRemarkClose

/-- The text of a piece of an attribute value. -/
def AttributePart.source : AttributePart → List Char
  | .text t => t.chars.toList
  | .mustache m => m.source

/-- The text of an attribute; an empty value is left out with its equals sign. -/
def Attribute.source (a : Attribute) : List Char :=
  a.name.toList ++
    match a.value with
    | .text t => if t.chars.isEmpty then [] else '=' :: '"' :: (t.chars.toList ++ ['"'])
    | .mustache m => '=' :: m.source
    | .concat parts => '=' :: '"' :: (parts.flatMap AttributePart.source ++ ['"'])

/-- Block parameters between bars, or nothing when there are none. -/
def blockParamsSource (params : List String) : List Char :=
  if params.isEmpty then []
  else [' ', 'a', 's', ' ', '|'] ++ separated [' '] (params.map String.toList) ++ ['|']

/-- The text of an opening tag up to, not including, its end. -/
def openingSource (tag : String) (attributes : List Attribute) (modifiers : List Mustache) :
    List Char :=
  Token.tagOpen ++ tag.toList ++ attributes.flatMap (fun a => ' ' :: a.source) ++
    modifiers.flatMap (fun m => ' ' :: m.source)

mutual
/-- The text of a statement. -/
def Statement.source : Statement → List Char
  | .element e => e.source
  | .text t => t.chars.toList
  | .mustache m => m.source
  | .block b => b.source
  | .comment c => c.source
termination_by structural s => s

/-- The text of an element.  A self-closing or void element shows no children. -/
def Element.source : Element → List Char
  | ⟨tag, attributes, modifiers, children, selfClosing, _⟩ =>
      openingSource tag attributes modifiers ++
        if selfClosing then ' ' :: Token.selfClose
        else if Element.voidTags.contains tag then Token.tagClose
        else Token.tagClose ++ statementsSource children ++ Token.closingTagOpen ++ tag.toList ++
          Token.tagClose
termination_by structural e => e

/-- The text of a block statement; a callee that is no path leaves its closing tag unnamed. -/
def BlockStatement.source : BlockStatement → List Char
  | ⟨call, ⟨body, params⟩, inverse, _⟩ =>
      Token.blockOpen ++ call.source ++ blockParamsSource params ++ Token.mustacheClose ++
        statementsSource body ++ inverseSource inverse ++
        Token.blockClose ++ (call.calleeText?.getD "").toList ++ Token.mustacheClose
termination_by structural b => b

/-- The else mark and what follows it, if there is an inverse. -/
def inverseSource : Option Block → List Char
  | none => []
  | some ⟨body, params⟩ =>
      Token.elseOpen ++ blockParamsSource params ++ Token.mustacheClose ++ statementsSource body
termination_by structural b => b

/-- The texts of statements, one after the other. -/
def statementsSource : List Statement → List Char
  | [] => []
  | s :: ss => s.source ++ statementsSource ss
termination_by structural ss => ss
end

/-- The text of a template. -/
def Template.source (t : Template) : List Char := statementsSource t.body

/-- A template as text. -/
def Template.print (t : Template) : String := String.ofList t.source

end Bracework
