/-
TOML — values written in quotes.

Double quotes allow escapes and single quotes do not; three quotes instead of
one allow line ends, drop a line end right behind them, and may be preceded by
up to two quotes that belong to the text.  Each reader here starts behind the
opening quotes and gives back the text and what follows the closing ones.
-/
import Bracework.Toml.Scalar

namespace Bracework.Toml.Quoted

/-- Characters that may stand in a line: all but control characters, and the tab. -/
def isTextChar (c : Char) : Bool := c == '\t' || 0x20 ≤ c.toNat && c.toNat != 0x7F

/-! ## Escapes -/

/-- The character with a code point in hexadecimal digits. -/
def codePoint? (digits : List Char) : Option Char :=
  let n := Scalar.ofDigits 16 digits
  if digits.all Scalar.isHexDigit && n.isValidChar then some (Char.ofNat n) else none

/-- The character that a letter behind a backslash stands for. -/
def escape? : Char → Option Char
  | 'b' => some '\x08'
  | 't' => some '\t'
  | 'n' => some '\n'
  | 'f' => some '\x0c'
  | 'r' => some '\r'
  | 'e' => some '\x1b'
  | '"' => some '"'
  | '\\' => some '\\'
  | _ => none

/-- A result with one more character in front. -/
def prepend (c : Char) (result : List Char × List Char) : List Char × List Char :=
  (c :: result.1, result.2)

/-! ## One line -/

def basic : List Char → Option (List Char × List Char)
  | [] => none
  | '"' :: cs => some ([], cs)
  | '\\' :: 'x' :: a :: b :: cs => do
      let c ← codePoint? [a, b]
      (basic cs).map (prepend c)
  | '\\' :: 'u' :: a :: b :: c :: d :: cs => do
      let c ← codePoint? [a, b, c, d]
      (basic cs).map (prepend c)
  | '\\' :: 'U' :: a :: b :: c :: d :: e :: f :: g :: h :: cs => do
      let c ← codePoint? [a, b, c, d, e, f, g, h]
      (basic cs).map (prepend c)
  | '\\' :: e :: cs => do
      let c ← escape? e
      (basic cs).map (prepend c)
  | c :: cs => if isTextChar c && c != '\\' then (basic cs).map (prepend c) else none

def literal : List Char → Option (List Char × List Char)
  | [] => none
  | '\'' :: cs => some ([], cs)
  | c :: cs => if isTextChar c then (literal cs).map (prepend c) else none

/-! ## Several lines -/

/-- The text behind a line end, if it starts with one. -/
def dropLineEnd : List Char → List Char
  | '\n' :: cs => cs
  | '\r' :: '\n' :: cs => cs
  | cs => cs

def startsLineEnd : List Char → Bool
  | '\n' :: _ => true
  | '\r' :: '\n' :: _ => true
  | _ => false

def isBlank (c : Char) : Bool := c == ' ' || c == '\t'

/-- Whether only blanks stand before the end of the line. -/
def restIsBlank (cs : List Char) : Bool := startsLineEnd (cs.dropWhile isBlank)

/-- Whether a character in front of others may stand in a text of several lines. -/
def isLinesChar (c : Char) (cs : List Char) : Bool :=
  isTextChar c || c == '\n' || c == '\r' && cs.head? == some '\n'

/-- Text in three double quotes.  A backslash at the end of a line drops all
blanks and line ends up to the next other character; `trim` tells that this is
going on. -/
def basicLines (trim : Bool) : List Char → Option (List Char × List Char)
  | [] => none
  | '"' :: '"' :: '"' :: '"' :: '"' :: cs => some (['"', '"'], cs)
  | '"' :: '"' :: '"' :: '"' :: cs => some (['"'], cs)
  | '"' :: '"' :: '"' :: cs => some ([], cs)
  | '\\' :: 'x' :: a :: b :: cs => do
      let c ← codePoint? [a, b]
      (basicLines false cs).map (prepend c)
  | '\\' :: 'u' :: a :: b :: c :: d :: cs => do
      let c ← codePoint? [a, b, c, d]
      (basicLines false cs).map (prepend c)
  | '\\' :: 'U' :: a :: b :: c :: d :: e :: f :: g :: h :: cs => do
      let c ← codePoint? [a, b, c, d, e, f, g, h]
      (basicLines false cs).map (prepend c)
  | '\\' :: e :: cs =>
      if restIsBlank (e :: cs) then basicLines true cs
      else do
        let c ← escape? e
        (basicLines false cs).map (prepend c)
  | c :: cs =>
      if c == '\\' || !isLinesChar c cs then none
      else if trim && (isBlank c || c == '\n' || c == '\r') then basicLines true cs
      else (basicLines false cs).map (prepend c)

/-- Text in three single quotes. -/
def literalLines : List Char → Option (List Char × List Char)
  | [] => none
  | '\'' :: '\'' :: '\'' :: '\'' :: '\'' :: cs => some (['\'', '\''], cs)
  | '\'' :: '\'' :: '\'' :: '\'' :: cs => some (['\''], cs)
  | '\'' :: '\'' :: '\'' :: cs => some ([], cs)
  | c :: cs => if isLinesChar c cs then (literalLines cs).map (prepend c) else none

/-! ## All forms -/

/-- The text in quotes that stands here, and what follows. -/
def read? : List Char → Option (List Char × List Char)
  | '"' :: '"' :: '"' :: cs => basicLines false (dropLineEnd cs)
  | '"' :: cs => basic cs
  | '\'' :: '\'' :: '\'' :: cs => literalLines (dropLineEnd cs)
  | '\'' :: cs => literal cs
  | _ => none

/-! ## What follows is shorter -/

theorem length_of_prepend {c : Char} {r : Option (List Char × List Char)}
    {text rest cs : List Char} (h : r.map (prepend c) = some (text, rest))
    (ih : ∀ {t}, r = some (t, rest) → rest.length ≤ cs.length) : rest.length ≤ cs.length := by
  obtain ⟨⟨t, u⟩, hr, h⟩ := Option.map_eq_some_iff.mp h
  simp only [prepend, Prod.mk.injEq] at h
  exact ih (t := t) (by rw [hr, h.2])

theorem length_basic {cs text rest : List Char} (h : basic cs = some (text, rest)) :
    rest.length ≤ cs.length := by
  fun_induction basic cs generalizing text with
  | case1 => simp at h
  | case2 cs => simp at h; simp [← h.2]
  | case3 a b cs ih | case4 a b _ d cs ih | case5 a b _ d e f g i cs ih | case6 e cs _ _ _ ih =>
    simp only [Option.bind_eq_bind, Option.bind_eq_some_iff] at h
    obtain ⟨c, _, h⟩ := h
    have := length_of_prepend h ih
    simp only [List.length_cons]
    omega
  | case7 c cs _ _ _ _ _ _ ih =>
    have := length_of_prepend h ih
    simp only [List.length_cons]
    omega
  | case8 => simp at h

theorem length_literal {cs text rest : List Char} (h : literal cs = some (text, rest)) :
    rest.length ≤ cs.length := by
  fun_induction literal cs generalizing text with
  | case1 => simp at h
  | case2 cs => simp at h; simp [← h.2]
  | case3 c cs _ _ ih =>
    have := length_of_prepend h ih
    simp only [List.length_cons]
    omega
  | case4 => simp at h

theorem length_basicLines {trim : Bool} {cs text rest : List Char}
    (h : basicLines trim cs = some (text, rest)) : rest.length ≤ cs.length := by
  fun_induction basicLines trim cs generalizing text with
  | case1 => simp at h
  | case2 | case3 | case4 => simp at h; simp only [← h.2, List.length_cons]; omega
  | case5 _ a b cs ih | case6 _ a b c d cs ih | case7 _ a b c d e f g i cs ih
  | case9 _ e cs _ _ _ _ ih =>
    simp only [Option.bind_eq_bind, Option.bind_eq_some_iff] at h
    obtain ⟨c, _, h⟩ := h
    have := length_of_prepend h ih
    simp only [List.length_cons]
    omega
  | case8 _ e cs _ _ _ _ ih | case11 _ c cs _ _ _ _ _ _ _ _ _ ih =>
    have := ih h
    simp only [List.length_cons]
    omega
  | case10 => simp at h
  | case12 _ c cs _ _ _ _ _ _ _ _ _ ih =>
    have := length_of_prepend h ih
    simp only [List.length_cons]
    omega

theorem length_literalLines {cs text rest : List Char} (h : literalLines cs = some (text, rest)) :
    rest.length ≤ cs.length := by
  fun_induction literalLines cs generalizing text with
  | case1 => simp at h
  | case2 | case3 | case4 => simp at h; simp only [← h.2, List.length_cons]; omega
  | case5 c cs _ _ _ _ ih =>
    have := length_of_prepend h ih
    simp only [List.length_cons]
    omega
  | case6 => simp at h

theorem length_dropLineEnd (cs : List Char) : (dropLineEnd cs).length ≤ cs.length := by
  unfold dropLineEnd
  split
  · exact Nat.le_succ _
  · exact Nat.le_add_right _ 2
  · exact Nat.le_refl _

/-- What follows a text in quotes is shorter than all of it. -/
theorem length_read? {cs text rest : List Char} (h : read? cs = some (text, rest)) :
    rest.length < cs.length := by
  unfold read? at h
  split at h
  · rename_i cs
    have h1 := length_basicLines h
    have h2 := length_dropLineEnd cs
    simp only [List.length_cons]
    omega
  · have := length_basic h
    simp only [List.length_cons]
    omega
  · rename_i cs
    have h1 := length_literalLines h
    have h2 := length_dropLineEnd cs
    simp only [List.length_cons]
    omega
  · have := length_literal h
    simp only [List.length_cons]
    omega
  · simp at h

end Bracework.Toml.Quoted
