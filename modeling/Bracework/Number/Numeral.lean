/-
Numbers — reading decimal text.

A numeral has digits, an optional point among or around them, and an optional
exponent; at least one digit stands before the exponent.  The two names of
values that are not numbers are read in any mixture of cases.  The value is the
nearest one, by `Decimal.toBinary64`.
-/
import Bracework.Number.Binary64

namespace Bracework.Numeral

/-- The digits at the head of a text and what follows them. -/
def digits (cs : List Char) : List Char × List Char :=
  (cs.takeWhile Char.isDigit, cs.dropWhile Char.isDigit)

/-- A sign at the head of a text: whether it is a minus, and what follows. -/
def sign : List Char → Bool × List Char
  | '-' :: cs => (true, cs)
  | '+' :: cs => (false, cs)
  | cs => (false, cs)

/-- The exponent part that must be all of a text; no part at all is zero. -/
def exponent? : List Char → Option Int
  | [] => some 0
  | mark :: cs =>
      if mark = 'e' ∨ mark = 'E' then
        let (negative, cs) := sign cs
        let (ds, rest) := digits cs
        if ds ≠ [] ∧ rest = [] then
          let n := Nat.ofDigitChars 10 ds 0
          some (if negative then -n else n)
        else none
      else none

/-- The fraction digits after a point, and what follows them. -/
def fraction : List Char → List Char × List Char
  | '.' :: cs => digits cs
  | cs => ([], cs)

/-- An unsigned numeral. -/
def decimal? (cs : List Char) : Option Decimal :=
  let (whole, cs) := digits cs
  let (places, cs) := fraction cs
  if whole = [] ∧ places = [] then none
  else
    (exponent? cs).map fun e => ⟨Nat.ofDigitChars 10 (whole ++ places) 0, e - places.length⟩

/-- A signed numeral, or one of the names of infinity and of no number. -/
def read? (text : List Char) : Option Binary64 :=
  let (negative, cs) := sign text
  let name := String.ofList (cs.map Char.toLower)
  if name = "inf" ∨ name = "infinity" then some (.infinite negative)
  else if name = "nan" then some .nan
  else (decimal? cs).map (·.toBinary64 negative)

end Bracework.Numeral
