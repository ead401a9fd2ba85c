/-
TOML — values written without quotes: truth values, numbers, dates and times.
-/
import Bracework.Text.Utf8
import Bracework.Toml.DateTime
import Bracework.Toml.Value

namespace Bracework.Toml.Scalar

/-! ## Digits -/

/-- Digits of a kind in groups that single underscores divide, without the underscores. -/
def grouped? (isDigit : Char → Bool) (cs : List Char) : Option (List Char) :=
  if (cutAt '_' cs).all fun group => !group.isEmpty && group.all isDigit then
    some (cs.filter (· != '_'))
  else none

/-- A whole number in the decimal system: no zero stands in front of other digits. -/
def whole? (cs : List Char) : Option (List Char) := do
  let digits ← grouped? Char.isDigit cs
  if digits.length > 1 && digits.head? == some '0' then none else some digits

/-- The value of a digit in systems of up to sixteen digits. -/
def digitValue (c : Char) : Nat :=
  if c.isDigit then c.toNat - '0'.toNat else c.toLower.toNat - 'a'.toNat + 10

def isHexDigit (c : Char) : Bool :=
  c.isDigit || 'a' ≤ c && c ≤ 'f' || 'A' ≤ c && c ≤ 'F'

/-- The number that digits denote in a system with that many digits. -/
def ofDigits (base : Nat) (digits : List Char) : Nat :=
  digits.foldl (fun n c => n * base + digitValue c) 0

/-! ## Integers

Reading an integer gives nothing if the text is refused, and no number if the text
passes as an integer without being one. -/

/-- Digits behind the mark of a system; there may be none, which is no number. -/
def inSystem? (base : Nat) (isDigit : Char → Bool) (cs : List Char) : Option (Option Nat) :=
  if cs.isEmpty then some none else (grouped? isDigit cs).map fun digits => some (ofDigits base digits)

/-- An integer in another system, as the mark in front tells. -/
def otherSystem? : List Char → Option (Option Nat)
  | '0' :: 'x' :: cs => inSystem? 16 isHexDigit cs
  | '0' :: 'o' :: cs => inSystem? 8 (fun c => '0' ≤ c && c ≤ '7') cs
  | '0' :: 'b' :: cs => inSystem? 2 (fun c => c == '0' || c == '1') cs
  | _ => none

/-- Whether every underscore stands between two characters that pass. -/
def dividesAll (passes : Char → Bool) : List Char → Bool
  | [] => true
  | '_' :: _ => false
  | [_] => true
  | a :: '_' :: b :: cs => passes a && passes b && dividesAll passes (b :: cs)
  | _ :: b :: cs => dividesAll passes (b :: cs)

/-- Characters that cannot be in an integer: the marks of a decimal number, and the space. -/
def isForeign (c : Char) : Bool := c == '.' || c == 'e' || c == 'E' || c == ' '

/-- Whether digits are followed by an underscore and something that passes: nothing
foreign, and underscores between digits of any system only. -/
def passesAsDigits (cs : List Char) : Bool :=
  match cs.dropWhile Char.isDigit with
  | '_' :: rest => cs.head? != some '0' && !rest.any isForeign && dividesAll isHexDigit cs
  | _ => false

/-- An integer without sign in the decimal system. -/
def unsigned? (cs : List Char) : Option (Option Nat) :=
  match whole? cs with
  | some digits => some (some (ofDigits 10 digits))
  | none => if passesAsDigits cs then some none else none

/-! ## Decimal numbers -/

/-- A sign at the head of a text, and what follows. -/
def signed : List Char → Bool × List Char
  | '-' :: cs => (true, cs)
  | '+' :: cs => (false, cs)
  | cs => (false, cs)

/-- An exponent without its mark. -/
def exponent? (cs : List Char) : Option Int := do
  let (negative, cs) := signed cs
  let n := ofDigits 10 (← grouped? Char.isDigit cs)
  return if negative then -n else n

/-- Whether a character stands before an exponent. -/
def isExponentMark (c : Char) : Bool := c == 'e' || c == 'E'

/-- Digits with a point among them, or without one. -/
def mantissa? (cs : List Char) : Option (List Char × List Char) :=
  match splitAtFirst? ['.'] cs with
  | some (whole, places) => return (← whole? whole, ← grouped? Char.isDigit places)
  | none => return (← whole? cs, [])

/-- A number with a point or an exponent. -/
def decimal? (cs : List Char) : Option Decimal := do
  let front := cs.takeWhile (!isExponentMark ·)
  let (whole, places) ← mantissa? front
  let exponent ← match cs.dropWhile (!isExponentMark ·) with
    | [] => if places.isEmpty then none else some 0
    | _ :: cs => exponent? cs
  return ⟨ofDigits 10 (whole ++ places), exponent - places.length⟩

/-- A number that may have a sign. -/
def number? (cs : List Char) : Option Value :=
  let (negative, rest) := signed cs
  if rest = "inf".toList then some (.infinite negative)
  else if rest = "nan".toList then some .nan
  else match unsigned? rest with
    | some n? => some (.integer (n?.map fun n => if negative then -(n : Int) else n))
    | none => (decimal? rest).map (.decimal negative)

/-! ## All values without quotes -/

def read? (cs : List Char) : Option Value :=
  if cs = "true".toList then some (.boolean true)
  else if cs = "false".toList then some (.boolean false)
  else match otherSystem? cs with
    | some n? => some (.integer (n?.map Int.ofNat))
    | none => match DateTime.read? cs with
      | some d => some (.dateTime d.print)
      | none => number? cs

end Bracework.Toml.Scalar
