/-
Templates — the delimiters of the notation and the characters of its names.

The reader and the printer use the same delimiters, so each is written down
once here.
-/
import Bracework.Text.CharClass

namespace Bracework.Token

/-! ## Delimiters -/

/-- Opens a mustache. -/
def mustacheOpen : List Char := ['{', '{']
/-- Closes a mustache. -/
def mustacheClose : List Char := ['}', '}']
/-- Opens a trusting mustache. -/
def trustingOpen : List Char := ['{', '{', '{']
/-- Closes a trusting mustache. -/
def trustingClose : List Char := ['}', '}', '}']
/-- Opens a block statement. -/
def blockOpen : List Char := ['{', '{', '#']
/-- Opens the closing tag of a block statement. -/
def blockClose : List Char := ['{', '{', '/']
/-- Opens the mark between a program and its inverse. -/
def elseOpen : List Char := ['{', '{', 'e', 'l', 's', 'e']
/-- Opens a short template comment. -/
def remarkOpen : List Char := ['{', '{', '!']
/-- Opens a long template comment, which may contain closed mustaches. -/
def longRemarkOpen : List Char := ['{', '{', '!', '-', '-']
/-- Closes a long template comment. -/
def longRemarkClose : List Char := ['-', '-', '}', '}']
/-- Opens a markup comment. -/
def commentOpen : List Char := ['<', '!', '-', '-']
/-- Closes a markup comment. -/
def commentClose : List Char := ['-', '-', '>']
/-- Opens a tag. -/
def tagOpen : List Char := ['<']
/-- Opens a closing tag. -/
def closingTagOpen : List Char := ['<', '/']
/-- Closes a tag. -/
def tagClose : List Char := ['>']
/-- Closes a tag without content. -/
def selfClose : List Char := ['/', '>']
/-- Introduces block parameters. -/
def paramsOpen : List Char := ['a', 's']
/-- Stands on both sides of block parameters. -/
def paramsBar : List Char := ['|']
/-- Closes a call in parentheses. -/
def subClose : List Char := [')']
/-- Stands between a name and its value. -/
def equals : List Char := ['=']

theorem mustacheClose_ne_nil : mustacheClose ≠ [] := List.cons_ne_nil _ _

/-! ## Characters of names -/

/-- Characters of a tag. -/
def isTagChar (c : Char) : Bool :=
  CharClass.isAlphanumeric c || c == '-' || c == ':' || c == '.' || c == '_' || c == '@'

/-- Characters of an argument name and of a block parameter. -/
def isNameChar (c : Char) : Bool :=
  CharClass.isAlphanumeric c || c == '-' || c == '_' || c == '$'

/-- Characters of a path. -/
def isPathChar (c : Char) : Bool := isNameChar c || c == '.' || c == '@'

/-- Characters that end an attribute name. -/
def endsAttributeName (c : Char) : Bool :=
  CharClass.isSpace c || c == '=' || c == '>' || c == '/' || c == '"' || c == '\''

/-- Characters that end an attribute value without quotes. -/
def endsBareValue (c : Char) : Bool := CharClass.isSpace c || c == '>' || c == '/'

/-! ## What stands at the head of a text -/

/-- Whether a text starts with a tag, opening or closing. -/
def startsTag : List Char → Bool
  | '<' :: c :: _ => c.isAlpha || c == '/'
  | _ => false

/-- Whether a text starts with the mark between a program and its inverse. -/
def startsElse (cs : List Char) : Bool :=
  elseOpen.isPrefixOf cs &&
    match cs.drop elseOpen.length with
    | c :: _ => CharClass.isSpace c || c == '}'
    | [] => false

/-- Whether the arguments of a call end here: at a closing delimiter, at block
parameters, or at the end of the text. -/
def endsCall (cs : List Char) : Bool :=
  cs.isEmpty || mustacheClose.isPrefixOf cs || subClose.isPrefixOf cs ||
    (paramsOpen.isPrefixOf cs &&
      match cs.drop paramsOpen.length with
      | c :: _ => CharClass.isSpace c || c == '|'
      | [] => false)

/-- The name at the head of a text when it is followed by an equals sign. -/
def argumentName? (cs : List Char) : Option (List Char) :=
  let name := cs.takeWhile isNameChar
  if name ≠ [] ∧ equals.isPrefixOf (cs.drop name.length) then some name else none

end Bracework.Token
