/-
Plugins — the checking plugins that come with the compiler.

Each looks at nodes one by one and says what is wrong with a node, if anything
is; the plugin fails at the first node that something is wrong with and leaves
the tree alone otherwise.
-/
import Bracework.Plugin.Location
import Bracework.Plugin.Reference

namespace Bracework

variable {m : Type → Type} [Monad m]

/-- A complaint: what is wrong, and where. -/
structure Complaint where
  message : String
  span : Span
deriving DecidableEq, Repr

/-- Fails with a complaint if there is one. -/
def raise (c : PluginContext) : Option Complaint → Effect m Unit
  | none => pure ()
  | some complaint => throw (located complaint.message c.moduleName complaint.span)

/-! ## Reserved named arguments -/

/-- The names of arguments that no template may use, apart from those that start
with two underscores. -/
def reservedNames : List String := ["@arguments", "@args", "@block", "@else"]

def isReservedName (head : String) : Bool :=
  reservedNames.contains head || "@__".toList.isPrefixOf head.toList

def Path.complaint? (p : Path) : Option Complaint :=
  if p.isNamedArgument && isReservedName p.head then
    some ⟨"'" ++ p.head ++ "' is reserved", p.span⟩
  else none

/-- Refuses reserved named arguments. -/
def reservedArguments : PluginRef m :=
  .factory 3 "assert-reserved-named-arguments" fun c => pure
    { name := "assert-reserved-named-arguments"
      visitor := Visitor.handle {} .path fun p => do
        raise c p.complaint?
        return p }

/-! ## Arguments of conditionals -/

/-- Whether a callee is one of the two conditionals. -/
def isConditional (callee : String) : Bool := callee == "if" || callee == "unless"

/-- The block form of a conditional takes exactly one argument, the condition. -/
def BlockStatement.complaint? (b : BlockStatement) : Option Complaint :=
  match b.call.calleeText? with
  | some callee =>
      if isConditional callee && b.call.params.length != 1 then
        some ⟨"\x7b\x7b#" ++ callee ++ "\x7d\x7d requires a single argument", b.span⟩
      else none
  | none => none

/-- The other forms take the condition, a value and possibly a second value. -/
def Call.complaint? (c : Call) (span : Span) : Option Complaint :=
  match c.calleeText? with
  | some callee =>
      if isConditional callee && !(2 ≤ c.params.length && c.params.length ≤ 3) then
        some ⟨"\x7b\x7b" ++ callee ++
          "\x7d\x7d helper requires at least two and at most three arguments", span⟩
      else none
  | none => none

/-- What is wrong with the arguments of a node, if it is a conditional. -/
def Kind.conditionalComplaint? : (k : Kind) → k.Node → Option Complaint
  | .blockStatement, b => b.complaint?
  | .mustache, n => n.call.complaint? n.span
  | .subExpression, s => s.call.complaint? s.span
  | .template, _ => none
  | .block, _ => none
  | .element, _ => none
  | .attr, _ => none
  | .text, _ => none
  | .comment, _ => none
  | .path, _ => none

/-- Refuses conditionals with too few or too many arguments. -/
def conditionalArguments : TransformType m where
  key := "AssertIfHelperWithoutArguments"
  defaultName := "AssertIfHelperWithoutArguments"
  construct c := pure fun t => t.visit fun k n => do
    raise c (k.conditionalComplaint? n)
    return n

def assertConditionalArguments : PluginRef m :=
  .transform conditionalArguments "assert-if-helper-without-arguments"

/-! ## Arguments of the debugger -/

/-- The debugger takes no argument. -/
def Mustache.debuggerComplaint? (n : Mustache) : Option Complaint :=
  if n.call.calleeText? == some "debugger" && !n.call.isBare then
    some ⟨"\x7b\x7bdebugger\x7d\x7d does not take any arguments", n.span⟩
  else none

/-- Refuses arguments of the debugger. -/
def debuggerArguments : PluginRef m :=
  .factory 4 "assert-debugger-without-arguments" fun c => pure
    { name := "assert-debugger-without-arguments"
      visitor := Visitor.handle {} .mustache fun n => do
        raise c n.debuggerComplaint?
        return n }

end Bracework
