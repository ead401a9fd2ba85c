/-
Characters — the classes that the template grammar is stated in.

A letter-like character is one of the property Alphabetic, a digit-like one has
a numeric general category, and space is the property White_Space.  The two
large classes are looked up in tables of ranges; a look-up stops at the first
range that begins above the character, so the tables must be in order.
-/
import Bracework.Text.Alphabetic
import Bracework.Text.Numeric

namespace Bracework.CharClass

/-- Whether a code point lies in one of the closed ranges of an ordered table. -/
def inRanges : List (Nat × Nat) → Nat → Bool
  | [], _ => false
  | (low, high) :: rest, n =>
      if n < low then false else if n ≤ high then true else inRanges rest n

/-- Characters with the property Alphabetic. -/
def isAlphabetic (c : Char) : Bool := inRanges alphabeticRanges c.toNat

/-- Characters of the categories Nd, Nl and No. -/
def isNumeric (c : Char) : Bool := inRanges numericRanges c.toNat

/-- Letters and digits of any script. -/
def isAlphanumeric (c : Char) : Bool := isAlphabetic c || isNumeric c

/-- The code points with the property White_Space, as closed ranges. -/
def spaceRanges : List (Nat × Nat) :=
  [(0x9, 0xD), (0x20, 0x20), (0x85, 0x85), (0xA0, 0xA0), (0x1680, 0x1680), (0x2000, 0x200A),
   (0x2028, 0x2029), (0x202F, 0x202F), (0x205F, 0x205F), (0x3000, 0x3000)]

/-- Characters with the property White_Space. -/
def isSpace (c : Char) : Bool := inRanges spaceRanges c.toNat

/-! ## The look-up finds exactly the ranges -/

/-- Every range begins above the given bound and above the end of the one before it. -/
def Ordered (above : Nat) : List (Nat × Nat) → Prop
  | [] => True
  | (low, high) :: rest => above ≤ low ∧ low ≤ high ∧ Ordered high rest

/-- In an ordered table nothing is found below the bound. -/
theorem inRanges_of_lt {ranges : List (Nat × Nat)} {above n : Nat} (ho : Ordered above ranges)
    (hn : n < above) : inRanges ranges n = false := by
  cases ranges with
  | nil => rfl
  | cons r rest =>
    obtain ⟨low, high⟩ := r
    have : n < low := Nat.lt_of_lt_of_le hn ho.1
    simp [inRanges, this]

/-- In an ordered table the look-up answers whether some range holds the code point. -/
theorem inRanges_iff {ranges : List (Nat × Nat)} {above n : Nat} (ho : Ordered above ranges) :
    inRanges ranges n = true ↔ ∃ r ∈ ranges, r.1 ≤ n ∧ n ≤ r.2 := by
  induction ranges generalizing above with
  | nil => simp [inRanges]
  | cons r rest ih =>
    obtain ⟨low, high⟩ := r
    have ih := ih ho.2.2
    by_cases h1 : n < low
    · have hr : inRanges rest n = false := inRanges_of_lt ho.2.2 (Nat.lt_of_lt_of_le h1 ho.2.1)
      have : ¬ low ≤ n := Nat.not_le.mpr h1
      simp only [inRanges, if_pos h1, List.mem_cons, exists_eq_or_imp, this, false_and, false_or]
      rw [← ih, hr]
    · by_cases h2 : n ≤ high
      · simp [inRanges, h1, h2, Nat.not_lt.mp h1]
      · simp [inRanges, h1, h2, ih]

end Bracework.CharClass
