/-
Numbers — the shortest decimal that reads back.

For one digit, two digits, and so on, the two neighbours of the magnitude on
that decimal grid are tried; the first grid with a neighbour that reads back
wins, and of two such neighbours the nearer.  Which way an exact tie goes is a
parameter, because number formats differ in it.
-/
import Bracework.Number.Binary64

namespace Bracework

/-- Which of two equally near neighbours on a decimal grid is taken. -/
inductive Tie where
  | even
  | up
deriving DecidableEq, Repr

namespace Decimal

/-- Whether rounding the decimal gives the magnitude with this code. -/
def readsAs (d : Decimal) (code : Nat) : Bool := d.code == code

/-- The same decimal without trailing zeros in its digits. -/
def strip (d : Decimal) : Decimal :=
  if h : d.digits ≠ 0 ∧ d.digits % 10 = 0 then strip ⟨d.digits / 10, d.exponent + 1⟩ else d
termination_by d.digits
decreasing_by exact Nat.div_lt_self (Nat.pos_of_ne_zero h.1) (by decide)

/-- Whether a number of units is at least `10 ^ exponent`. -/
def reaches (units : Nat) (exponent : Int) : Bool :=
  if 0 ≤ exponent then Nat.pow 10 exponent.toNat * Binary64.one ≤ units
  else Binary64.one ≤ units * Nat.pow 10 (-exponent).toNat

/-- The exponent of the leading decimal digit of a number of units, estimated
from the binary logarithm and corrected by at most one. -/
def leadingExponent (units : Nat) : Int :=
  let guess := ((units.log2 : Int) - 1074) * 1233 / 4096
  if reaches units (guess + 1) then guess + 1
  else if reaches units guess then guess
  else guess - 1

/-- A number of units over `10 ^ grid`, as a quotient of natural numbers. -/
def onGrid (units : Nat) (grid : Int) : Nat × Nat :=
  if 0 ≤ grid then (units, Binary64.one * Nat.pow 10 grid.toNat)
  else (units * Nat.pow 10 (-grid).toNat, Binary64.one)

/-- The neighbour to take when both read back. -/
def nearer (tie : Tie) (num den : Nat) : Nat :=
  if 2 * (num % den) < den then num / den
  else if den < 2 * (num % den) then num / den + 1
  else match tie with
    | .up => num / den + 1
    | .even => num / den + num / den % 2

/-- The neighbour of a magnitude on the grid `10 ^ grid` that reads back, if there is one. -/
def neighbour? (tie : Tie) (code : Nat) (grid : Int) : Option Decimal :=
  let (num, den) := onGrid (Binary64.units code) grid
  let low : Decimal := ⟨num / den, grid⟩
  let high : Decimal := ⟨num / den + 1, grid⟩
  match low.readsAs code, high.readsAs code with
  | true, true => some ⟨nearer tie num den, grid⟩
  | true, false => some low
  | false, true => some high
  | false, false => none

/-- A magnitude written out in full: a unit is `5 ^ 1074 * 10 ^ -1074`. -/
def exact (code : Nat) : Decimal := ⟨Binary64.units code * Nat.pow 5 1074, -1074⟩

/-- The shortest decimal that reads back as a magnitude, at most seventeen
digits long, and the exact decimal should no such grid have one. -/
def shortest (tie : Tie) (code : Nat) : Decimal :=
  if code = 0 then ⟨0, 0⟩
  else
    let lead := leadingExponent (Binary64.units code)
    let found := (List.range 17).findSome? fun (n : Nat) => neighbour? tie code (lead - n)
    (found.getD (exact code)).strip

end Decimal

end Bracework
