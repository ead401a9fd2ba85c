/-
Numbers — binary64 values and correct rounding, in exact natural arithmetic.

A finite magnitude is named by its code: the 63 bits below the sign, read as a
number.  Consecutive codes are neighbouring magnitudes, and every magnitude is
a whole number of units of 2^-1074, so the whole layer is about natural numbers
and never needs a fraction.
-/
namespace Bracework

/-- The number of finite magnitudes; a code at or above it means overflow. -/
def Binary64.codes : Nat := 2047 * Nat.pow 2 52

/-- A binary64 value.  A not-a-number has no further identity here. -/
inductive Binary64 where
  | finite (negative : Bool) (code : Fin Binary64.codes)
  | infinite (negative : Bool)
  | nan
deriving DecidableEq, Repr

namespace Binary64

/-- Zero, which keeps its sign. -/
def zero (negative : Bool) : Binary64 := .finite negative ⟨0, by decide⟩

instance : Inhabited Binary64 := ⟨zero false⟩

/-- Whether a value is a number that is not infinite. -/
def isFinite : Binary64 → Bool
  | .finite .. => true
  | .infinite _ => false
  | .nan => false

/-- Binary places by which a magnitude's significand stands above the unit. -/
def shift (code : Nat) : Nat := code / Nat.pow 2 52 - 1

/-- The integer significand of a magnitude: the leading bit is implicit from code 2^52 on. -/
def significand (code : Nat) : Nat :=
  if code < Nat.pow 2 52 then code else Nat.pow 2 52 + code % Nat.pow 2 52

/-- A magnitude in units of 2^-1074. -/
def units (code : Nat) : Nat := significand code * Nat.pow 2 (shift code)

/-- One is this many units. -/
def one : Nat := Nat.pow 2 1074

/-! ## Rounding to the nearest magnitude -/

/-- A quotient rounded to the nearest natural number, a tie to the even one. -/
def roundHalfEven (num den : Nat) : Nat :=
  if 2 * (num % den) < den then num / den
  else if den < 2 * (num % den) then num / den + 1
  else num / den + num / den % 2

/-- The code nearest to a quotient of units, a tie to the even code.  A code is
the place of its binade plus the rounded significand, so a significand that
rounds up to the next power of two needs no correction. -/
def nearestCode (num den : Nat) : Nat :=
  let shift := (num / den).log2 - 52
  shift * Nat.pow 2 52 + roundHalfEven num (den * Nat.pow 2 shift)

/-- The value with a sign and a code, infinite from the first code that is too large. -/
def ofCode (negative : Bool) (code : Nat) : Binary64 :=
  if h : code < codes then .finite negative ⟨code, h⟩ else .infinite negative

end Binary64

/-! ## Decimals -/

/-- The non-negative decimal `digits * 10 ^ exponent`. -/
structure Decimal where
  digits : Nat
  exponent : Int
deriving DecidableEq, Repr

namespace Decimal

/-- The code of the magnitude nearest to a decimal. -/
def code (d : Decimal) : Nat :=
  if 0 ≤ d.exponent then
    Binary64.nearestCode (d.digits * Nat.pow 10 d.exponent.toNat * Binary64.one) 1
  else
    Binary64.nearestCode (d.digits * Binary64.one) (Nat.pow 10 (-d.exponent).toNat)

/-- A decimal with non-zero digits that is surely above every finite magnitude. -/
def isHuge (d : Decimal) : Bool := 400 < d.exponent

/-- A decimal that is surely nearer to zero than to any other magnitude. -/
def isTiny (d : Decimal) : Bool := d.exponent + d.digits.log2 + 1 < -400

/-- The value nearest to a signed decimal.  Very large and very small decimals
are answered from their exponent alone, so that no power of ten is formed that
the answer does not need. -/
def toBinary64 (negative : Bool) (d : Decimal) : Binary64 :=
  if d.digits = 0 ∨ d.isTiny then Binary64.zero negative
  else if d.isHuge then .infinite negative
  else Binary64.ofCode negative d.code

end Decimal

end Bracework
