/-
Templates — why a source cannot be read.

A fault is a cause; its wording, help and label are functions of it.  There are
five kinds: something that cannot stand where it does, a source that ends too
early, and three ways for opening and closing marks not to match.
-/
import Bracework.Template.Syntax

namespace Bracework

/-- Something that cannot stand where it was met. -/
inductive Surprise where
  | closingTag (name : String)
  | closingBlock (name : String)
  | elseOutsideBlock
  | otherThan (expected : String) (found : Char)
  | noBlockParam
  | wrongBlockClose (found expected : String)
  | closingTagInBlock (tag block : String)
  | closingBlockInElement (block tag : String)
  | elseInElement (tag : String)
  | inTag (found : Char)
  | noExpression
  | lateParam
  | badNumber (text : String)
  | inExpression (found : Char)
  | described (message : String)
deriving DecidableEq, Repr

/-- Something that the source ends without. -/
inductive Missing where
  | token (text : String)
  | commentClose (text : String)
  | attributeQuote (quote : Char)
  | stringQuote (quote : Char)
  | expression
  | described (what : String)
deriving DecidableEq, Repr

/-- Why a source cannot be read. -/
inductive Fault where
  | unexpected (what : Surprise)
  | endOfInput (missing : Missing)
  | unclosedElement (tag : String)
  | mismatchedClose (expected found : String)
  | unclosedBlock (name : String)
deriving DecidableEq, Repr

/-- A fault and the bytes it is about. -/
structure ParseError where
  fault : Fault
  span : Span
deriving DecidableEq, Repr

/-- A source text and the name it goes by in error reports. -/
structure SourceContext where
  source : String
  filename : String
deriving DecidableEq, Repr

/-- A parse error together with the source it is about. -/
structure SourceError where
  error : ParseError
  context : SourceContext
deriving DecidableEq, Repr

/-! ## Wording -/

/-- A name as the mark that opens a block. -/
def blockOpener (name : String) : String := "\x7b\x7b#" ++ name ++ "\x7d\x7d"

/-- A name as the mark that closes a block. -/
def blockCloser (name : String) : String := "\x7b\x7b/" ++ name ++ "\x7d\x7d"

/-- The bare else mark. -/
def elseMark : String := "\x7b\x7belse\x7d\x7d"

/-- A text in single quotes. -/
def inQuotes (text : String) : String := "'" ++ text ++ "'"

def Surprise.message : Surprise → String
  | .closingTag name => "unexpected closing tag </" ++ name ++ ">"
  | .closingBlock name => "unexpected closing block " ++ blockCloser name
  | .elseOutsideBlock => elseMark ++ " outside of a block"
  | .otherThan expected found =>
      "expected " ++ inQuotes expected ++ ", found " ++ inQuotes (String.singleton found)
  | .noBlockParam => "expected a block param name"
  | .wrongBlockClose found expected =>
      blockCloser found ++ " does not close " ++ blockOpener expected
  | .closingTagInBlock tag block => "closing tag </" ++ tag ++ "> inside " ++ blockOpener block
  | .closingBlockInElement block tag => blockCloser block ++ " inside <" ++ tag ++ ">"
  | .elseInElement tag => elseMark ++ " directly inside <" ++ tag ++ ">"
  | .inTag found => "unexpected " ++ inQuotes (String.singleton found) ++ " in element"
  | .noExpression => "expected an expression"
  | .lateParam => "positional arguments must come before named arguments"
  | .badNumber text => "invalid number " ++ inQuotes text
  | .inExpression found => "unexpected " ++ inQuotes (String.singleton found) ++ " in expression"
  | .described message => message

def Missing.phrase : Missing → String
  | .token text => inQuotes text
  | .commentClose text => inQuotes text ++ " to close comment"
  | .attributeQuote quote => "closing " ++ String.singleton quote ++ " for attribute"
  | .stringQuote quote => "closing " ++ String.singleton quote ++ " for string"
  | .expression => "an expression"
  | .described what => what

namespace Fault

def message : Fault → String
  | .unexpected what => what.message
  | .endOfInput missing => "unexpected end of template, expected " ++ missing.phrase
  | .unclosedElement tag => "unclosed element <" ++ tag ++ ">"
  | .mismatchedClose expected found =>
      "closing tag </" ++ found ++ "> does not match <" ++ expected ++ ">"
  | .unclosedBlock name => "unclosed block " ++ blockOpener name

/-- The text that stands beside the marked bytes. -/
def label : Fault → String
  | .unexpected what => what.message
  | .endOfInput _ => "template ends here"
  | .unclosedElement _ => "opened here"
  | .mismatchedClose expected _ => "expected </" ++ expected ++ ">"
  | .unclosedBlock _ => "block opened here"

/-- How to mend the source, where that is known. -/
def help? : Fault → Option String
  | .unclosedElement tag =>
      some ("add a closing </" ++ tag ++ "> tag, or self-close it with <" ++ tag ++ " />")
  | .unclosedBlock name => some ("close the block with " ++ blockCloser name)
  | _ => none

/-- The last part of a fault's code. -/
def code : Fault → String
  | .unexpected _ => "unexpected"
  | .endOfInput _ => "eof"
  | .unclosedElement _ => "unclosed_element"
  | .mismatchedClose .. => "mismatched_close"
  | .unclosedBlock _ => "unclosed_block"

end Fault

namespace SourceContext

/-- A fault of this source at some bytes. -/
def fault (c : SourceContext) (what : Fault) (span : Span) : SourceError := ⟨⟨what, span⟩, c⟩

/-- The fault of a source that ends too early; it is about the end of the source. -/
def endsWithout (c : SourceContext) (missing : Missing) : SourceError :=
  let length := utf8Length c.source.toList
  c.fault (.endOfInput missing) ⟨length, length⟩

end SourceContext

end Bracework
