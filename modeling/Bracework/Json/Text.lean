/-
JSON text, on one line and indented.

The indented form puts every item and member on a line of its own, two spaces
deeper than its container; an empty container stays closed on its line.  A
string escapes the quote, the backslash and the control characters below the
space, and nothing else.
-/
import Bracework.Json.Basic
import Bracework.Number.Layout
import Bracework.Text.Utf8

namespace Bracework.Json

/-- The low digit of a number in hexadecimal, in lower case. -/
def hexDigit (n : Nat) : Char := Nat.digitChar (n % 16)

/-- One character of a string, escaped if it has to be. -/
def escape (c : Char) : List Char :=
  if c = '"' then ['\\', '"']
  else if c = '\\' then ['\\', '\\']
  else if c = '\x08' then ['\\', 'b']
  else if c = '\x0c' then ['\\', 'f']
  else if c = '\n' then ['\\', 'n']
  else if c = '\r' then ['\\', 'r']
  else if c = '\t' then ['\\', 't']
  else if c.toNat < 0x20 then ['\\', 'u', '0', '0', hexDigit (c.toNat / 16), hexDigit c.toNat]
  else [c]

/-- A string in quotes. -/
def quoted (text : String) : List Char := '"' :: (text.toList.flatMap escape ++ ['"'])

/-- A whole number in decimal. -/
def wholeText (n : Int) : List Char :=
  (if n < 0 then ['-'] else []) ++ Nat.toDigits 10 n.natAbs

mutual
/-- Text on one line, without blanks. -/
def compactText : Json → List Char
  | .null => ['n', 'u', 'l', 'l']
  | .bool true => ['t', 'r', 'u', 'e']
  | .bool false => ['f', 'a', 'l', 's', 'e']
  | .whole n => wholeText n
  | .real negative code => NumberFormat.json.finiteText negative code.val
  | .string text => quoted text
  | .array items => '[' :: (separated [','] (compactItems items) ++ [']'])
  | .object members => '{' :: (separated [','] (compactMembers members) ++ ['}'])
termination_by structural v => v

/-- The items of an array, one text each. -/
def compactItems : List Json → List (List Char)
  | [] => []
  | v :: vs => compactText v :: compactItems vs
termination_by structural vs => vs

/-- The members of an object, one text each. -/
def compactMembers : List (String × Json) → List (List Char)
  | [] => []
  | (k, v) :: ms => (quoted k ++ ':' :: compactText v) :: compactMembers ms
termination_by structural ms => ms
end

/-- A line end and the indentation of a level. -/
def newline (level : Nat) : List Char := '\n' :: List.replicate (2 * level) ' '

/-- Lines between two brackets, one level deeper than the brackets. -/
def bracketed (opening closing : Char) (level : Nat) : List (List Char) → List Char
  | [] => [opening, closing]
  | t :: ts =>
      opening :: (newline (level + 1) ++ separated (',' :: newline (level + 1)) (t :: ts) ++
        newline level ++ [closing])

mutual
/-- Indented text of a value that stands at a level. -/
def indentedText (level : Nat) : Json → List Char
  | .null => ['n', 'u', 'l', 'l']
  | .bool true => ['t', 'r', 'u', 'e']
  | .bool false => ['f', 'a', 'l', 's', 'e']
  | .whole n => wholeText n
  | .real negative code => NumberFormat.json.finiteText negative code.val
  | .string text => quoted text
  | .array items => bracketed '[' ']' level (indentedItems (level + 1) items)
  | .object members => bracketed '{' '}' level (indentedMembers (level + 1) members)
termination_by structural v => v

/-- The items of an array at a level, one text each. -/
def indentedItems (level : Nat) : List Json → List (List Char)
  | [] => []
  | v :: vs => indentedText level v :: indentedItems level vs
termination_by structural vs => vs

/-- The members of an object at a level, one text each. -/
def indentedMembers (level : Nat) : List (String × Json) → List (List Char)
  | [] => []
  | (k, v) :: ms => (quoted k ++ ':' :: ' ' :: indentedText level v) :: indentedMembers level ms
termination_by structural ms => ms
end

/-- A value on one line. -/
def compact (v : Json) : String := String.ofList (compactText v)

/-- A value indented by two spaces a level. -/
def indented (v : Json) : String := String.ofList (indentedText 0 v)

end Bracework.Json
