/-
Numbers — how chosen digits are laid out as text.

A format says which leading exponents are written positionally, whether a whole
number keeps its point, and which way a tie between two decimals goes.  The two
formats of this library are the template's own numerals and the numbers of a
JSON text.
-/
import Bracework.Number.Shortest

namespace Bracework

/-- The decisions of a number format. -/
structure NumberFormat where
  /-- which of two equally near shortest decimals is written -/
  tie : Tie
  /-- the exponents of the leading digit that are written without an exponent mark -/
  positional : Int → Bool
  /-- whether a whole number is written with a point and a zero -/
  keepsPoint : Bool

namespace Decimal

/-- The exponent of the leading digit of a written decimal. -/
def lead (d : Decimal) : Int := d.exponent + (Nat.toDigits 10 d.digits).length - 1

/-- Positional text: the point stands after, inside or before the digits. -/
def positionalText (keepsPoint : Bool) (d : Decimal) : List Char :=
  let digits := Nat.toDigits 10 d.digits
  if 0 ≤ d.exponent then
    digits ++ List.replicate d.exponent.toNat '0' ++ (if keepsPoint then ['.', '0'] else [])
  else
    let places := (-d.exponent).toNat
    if places < digits.length then
      digits.take (digits.length - places) ++ '.' :: digits.drop (digits.length - places)
    else '0' :: '.' :: (List.replicate (places - digits.length) '0' ++ digits)

/-- Text with an exponent mark: one digit before the point, a sign always written. -/
def exponentText (d : Decimal) : List Char :=
  let mark := 'e' :: (if 0 ≤ d.lead then '+' else '-') :: Nat.toDigits 10 d.lead.natAbs
  match Nat.toDigits 10 d.digits with
  | [] => mark
  | [first] => first :: mark
  | first :: others => first :: '.' :: (others ++ mark)

end Decimal

namespace NumberFormat

/-- The text of a finite value. -/
def finiteText (format : NumberFormat) (negative : Bool) (code : Nat) : List Char :=
  let d := Decimal.shortest format.tie code
  (if negative then ['-'] else []) ++
    if format.positional d.lead then d.positionalText format.keepsPoint else d.exponentText

/-- Numerals of a template: positional whatever the size, without an idle point, ties upward. -/
def template : NumberFormat where
  tie := .up
  positional := fun _ => true
  keepsPoint := false

/-- Numbers of a JSON text: positional from `0.00001` up to sixteen digits before
the point, always with a point then, ties to the even digit. -/
def json : NumberFormat where
  tie := .even
  positional := fun lead => -5 ≤ lead && lead ≤ 15
  keepsPoint := true

end NumberFormat

/-- A value as a template numeral; the values that no numeral denotes have names. -/
def Binary64.numeral : Binary64 → List Char
  | .finite negative code => NumberFormat.template.finiteText negative code.val
  | .infinite negative => (if negative then ['-'] else []) ++ ['i', 'n', 'f']
  | .nan => ['N', 'a', 'N']

end Bracework
