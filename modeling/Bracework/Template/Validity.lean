/-
Templates — which trees can be written out and lowered.

Every node has a rule that looks at the node alone, not at its parts.  The
checker goes through a tree in document order and reports the first breach it
meets; what is wrong is a cause, and its wording is a function of it.
-/
import Bracework.Template.Node
import Bracework.Template.Token

namespace Bracework

/-- A breach of the rules of a tree. -/
inductive Breach where
  | blockParam (kind : Kind) (param : String)
  | tagName (tag : String)
  | voidWithChildren (tag : String)
  | attributeName (name : String)
  | emptyConcat (name : String)
  | calleeNoPath
  | emptyArgumentName
  | path (text : String)
deriving DecidableEq, Repr

namespace Breach

/-- The kind of node that a breach is reported for.  An argument without a name
is reported for a mustache wherever the call stands. -/
def kind : Breach → Kind
  | .blockParam kind _ => kind
  | .tagName _ => .element
  | .voidWithChildren _ => .element
  | .attributeName _ => .attr
  | .emptyConcat _ => .attr
  | .calleeNoPath => .blockStatement
  | .emptyArgumentName => .mustache
  | .path _ => .path

def detail : Breach → String
  | .blockParam _ param => "'" ++ param ++ "' is not a valid block param"
  | .tagName tag => "'" ++ tag ++ "' is not a valid tag name"
  | .voidWithChildren tag => "void element <" ++ tag ++ "> cannot have children"
  | .attributeName name => "'" ++ name ++ "' is not a valid attribute name"
  | .emptyConcat name => "attribute '" ++ name ++ "' has an empty concat value"
  | .calleeNoPath => "block callee must be a path"
  | .emptyArgumentName => "empty named argument"
  | .path text => "'" ++ text ++ "' is not a valid path"

def message (b : Breach) : String := "invalid " ++ b.kind.name ++ ": " ++ b.detail

end Breach

/-! ## The rules of names -/

/-- Whether a text has a blank character. -/
def hasSpace (text : String) : Bool := text.toList.any CharClass.isSpace

/-- A block parameter is not empty and has no blank. -/
def isBlockParam (param : String) : Bool := !param.isEmpty && !hasSpace param

/-- A tag starts with a letter, an at sign or a colon, and has no blank. -/
def isTagName (tag : String) : Bool :=
  (match tag.toList with
    | c :: _ => CharClass.isAlphabetic c || c == '@' || c == ':'
    | [] => false) && !hasSpace tag

/-- An attribute name is not empty and has no character that would end it. -/
def isAttributeName (name : String) : Bool :=
  !name.isEmpty && !name.toList.any Token.endsAttributeName

/-- A path is not empty, has no blank, and no two of its dots or ends meet. -/
def Path.isValid (p : Path) : Bool :=
  !p.text.isEmpty && !hasSpace p.text && p.segments.all (!·.isEmpty)

/-! ## The checker -/

/-- The result of a check: the first breach, or nothing. -/
abbrev Check : Type := Except Breach Unit

/-- A breach unless a condition holds. -/
def demand (condition : Bool) (otherwise : Breach) : Check :=
  if condition then .ok () else .error otherwise

/-- The first block parameter that is none. -/
def checkBlockParams (kind : Kind) (params : List String) : Check :=
  match params.find? (!isBlockParam ·) with
  | some param => .error (.blockParam kind param)
  | none => .ok ()

mutual
def Expression.check : Expression → Check
  | .path p => demand p.isValid (.path p.text)
  | .literal _ => .ok ()
  | .sub c _ => c.check
termination_by structural e => e

def Call.check : Call → Check
  | ⟨callee, params, hash⟩ => do
      callee.check
      checkParams params
      checkHash hash
termination_by structural c => c

def checkParams : List Expression → Check
  | [] => .ok ()
  | e :: es => do
      e.check
      checkParams es
termination_by structural es => es

def checkHash : List (String × Expression) → Check
  | [] => .ok ()
  | (key, e) :: rest => do
      demand (!key.isEmpty) .emptyArgumentName
      e.check
      checkHash rest
termination_by structural rest => rest
end

def AttributePart.check : AttributePart → Check
  | .text _ => .ok ()
  | .mustache m => m.call.check

def Attribute.check (a : Attribute) : Check := do
  demand (isAttributeName a.name) (.attributeName a.name)
  match a.value with
  | .text _ => .ok ()
  | .mustache m => m.call.check
  | .concat parts => do
      demand (!parts.isEmpty) (.emptyConcat a.name)
      parts.forM AttributePart.check

mutual
def Statement.check : Statement → Check
  | .element e => e.check
  | .text _ => .ok ()
  | .mustache m => m.call.check
  | .block b => b.check
  | .comment _ => .ok ()
termination_by structural s => s

def Element.check : Element → Check
  | ⟨tag, attributes, modifiers, children, _, _⟩ => do
      demand (isTagName tag) (.tagName tag)
      demand (!(Element.voidTags.contains tag && !children.isEmpty)) (.voidWithChildren tag)
      attributes.forM Attribute.check
      modifiers.forM fun m => m.call.check
      checkStatements children
termination_by structural e => e

def BlockStatement.check : BlockStatement → Check
  | ⟨call, program, inverse, _⟩ => do
      demand call.calleeText?.isSome .calleeNoPath
      call.check
      program.check
      checkInverse inverse
termination_by structural b => b

def checkInverse : Option Block → Check
  | none => .ok ()
  | some b => b.check
termination_by structural b => b

def Block.check : Block → Check
  | ⟨body, params⟩ => do
      checkBlockParams .block params
      checkStatements body
termination_by structural b => b

def checkStatements : List Statement → Check
  | [] => .ok ()
  | s :: ss => do
      s.check
      checkStatements ss
termination_by structural ss => ss
end

/-- The first breach of a template in document order. -/
def Template.validate (t : Template) : Check := do
  checkBlockParams .template t.params
  checkStatements t.body

end Bracework
