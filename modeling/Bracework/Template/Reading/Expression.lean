/-
Templates — reading expressions and calls.

An expression is a call in parentheses, a string, a numeral or a word; a word
is a path unless it is one of the four names of constants.  A call is an
expression and then arguments, positional ones first, up to a closing
delimiter.  Every step moves on, so the recursion ends by what is left.
-/
import Bracework.Number.Numeral
import Bracework.Template.Cursor

namespace Bracework

/-! ## Leaves -/

/-- The expression that a word stands for. -/
def Expression.ofWord (word : List Char) (span : Span) : Expression :=
  if word = ['t', 'r', 'u', 'e'] then .literal (.boolean true)
  else if word = ['f', 'a', 'l', 's', 'e'] then .literal (.boolean false)
  else if word = ['n', 'u', 'l', 'l'] then .literal .null
  else if word = ['u', 'n', 'd', 'e', 'f', 'i', 'n', 'e', 'd'] then .literal .undefined
  else .path ⟨String.ofList word, span⟩

namespace Reading

/-- Whether a text starts with a digit, or with a minus and a digit. -/
def startsNumeral : List Char → Bool
  | '-' :: c :: _ => c.isDigit
  | c :: _ => c.isDigit
  | [] => false

/-- The characters that continue a numeral. -/
def isNumeralChar (c : Char) : Bool := c.isDigit || c == '.'

/-- A string up to its closing quote; nothing in it is escaped. -/
def string (c : Cursor) (quote : Char) (others : List Char) (h : c.rest = quote :: others) :
    Reading (Step c Expression) :=
  match hs : splitAtFirst? [quote] others with
  | none => .error (c.endsWithout (.stringQuote quote))
  | some (text, after) =>
      .ok ⟨.literal (.string (String.ofList text)),
        ⟨after, c.offset + quote.utf8Size + utf8Length text + quote.utf8Size⟩, by
          have := congrArg List.length (append_of_splitAtFirst? hs)
          simp only [List.length_append, List.length_cons, List.length_nil] at this
          simp only [Cursor.left, h, List.length_cons]; omega⟩

/-- A numeral: its first character, then digits and points. -/
def numeral (c : Cursor) (first : Char) (others : List Char) (h : c.rest = first :: others) :
    Reading (Step c Expression) :=
  let text := first :: others.takeWhile isNumeralChar
  let next : Cursor := ⟨others.dropWhile isNumeralChar, c.offset + utf8Length text⟩
  match Numeral.read? text with
  | none => .error (Cursor.unexpected (.badNumber (String.ofList text)) (next.spanFrom c.offset))
  | some value =>
      .ok ⟨.literal (.number value), next, by
        have := (List.dropWhile_suffix isNumeralChar (l := others)).sublist.length_le
        simp only [Cursor.left, h, List.length_cons, next]; omega⟩

/-- A word, whose first character is known to belong to it. -/
def word (c : Cursor) (first : Char) (others : List Char) (h : c.rest = first :: others)
    (hf : Token.isPathChar first = true) : Step c Expression :=
  let next := c.skip Token.isPathChar
  ⟨.ofWord (c.taken Token.isPathChar) (next.spanFrom c.offset), next, by
    have := (List.dropWhile_suffix Token.isPathChar (l := others)).sublist.length_le
    simp only [Cursor.left, Cursor.skip, h, List.dropWhile_cons, hf, if_true, List.length_cons, next]
    omega⟩

theorem left_advance_one {c : Cursor} {first : Char} {others : List Char}
    (h : c.rest = first :: others) : (c.advance 1).left < c.left := by
  rw [Cursor.left_advance]
  simp [Cursor.left, h]

/-- The place of the value of a named argument whose name stands here. -/
def behindName (c : Cursor) (name : List Char) : Cursor := (c.advance (name.length + 1)).skipSpace

theorem left_behindName_le (c : Cursor) (name : List Char) : (behindName c name).left ≤ c.left := by
  have h1 := Cursor.left_skipSpace_le (c.advance (name.length + 1))
  have h2 := Cursor.left_advance c (name.length + 1)
  simp only [behindName]
  omega

/-! ## Expressions and calls -/

mutual
/-- Reads an expression. -/
def expression (c : Cursor) : Reading (Step c Expression) :=
  match h : c.rest with
  | [] => .error (c.endsWithout .expression)
  | first :: others =>
      if first = '(' then do
        have hi : (c.advance 1).skipSpace.left < c.left :=
          Nat.lt_of_le_of_lt (Cursor.left_skipSpace_le _) (left_advance_one h)
        let inner ← call (c.advance 1).skipSpace c.offset
        let closed ← inner.next.skipSpace.expect Token.subClose (by decide)
        return ⟨.sub inner.value (closed.next.spanFrom c.offset), closed.next, by
          have h1 := closed.further
          have h2 := Cursor.left_skipSpace_le inner.next
          have h3 := inner.further
          omega⟩
      else if first = '"' ∨ first = '\'' then string c first others h
      else if startsNumeral (first :: others) then numeral c first others h
      else if hp : Token.isPathChar first = true then .ok (word c first others h hp)
      else .error (Cursor.unexpected (.inExpression first) ⟨c.offset, c.offset + first.utf8Size⟩)
termination_by 2 * c.left
decreasing_by omega

/-- Reads a call; an error about a missing callee is reported from `start` on. -/
def call (c : Cursor) (start : Nat) : Reading (Step c Call) :=
  if Token.endsCall c.rest then .error (Cursor.unexpected .noExpression (c.spanFrom start))
  else do
    let callee ← expression c
    have hc := callee.further
    let args ← arguments callee.next false
    return ⟨⟨callee.value, args.value.1, args.value.2⟩, args.next, by
      have h1 := callee.further
      have h2 := args.further
      omega⟩
termination_by 2 * c.left + 1
decreasing_by all_goals omega

/-- Reads the arguments of a call, `named` telling whether a named one came before. -/
def arguments (c : Cursor) (named : Bool) :
    Reading (Move c (List Expression × List (String × Expression))) :=
  have hd : c.skipSpace.left ≤ c.left := Cursor.left_skipSpace_le c
  if Token.endsCall c.skipSpace.rest then .ok ⟨([], []), c.skipSpace, hd⟩
  else match Token.argumentName? c.skipSpace.rest with
    | some name => do
        have he := left_behindName_le c.skipSpace name
        let value ← expression (behindName c.skipSpace name)
        have hv := value.further
        let others ← arguments value.next true
        return ⟨(others.value.1, (String.ofList name, value.value) :: others.value.2), others.next, by
          have := others.further
          omega⟩
    | none =>
        if named then .error (Cursor.unexpected .lateParam c.skipSpace.here)
        else do
          let value ← expression c.skipSpace
          have hv := value.further
          let others ← arguments value.next false
          return ⟨(value.value :: others.value.1, others.value.2), others.next, by
            have := others.further
            omega⟩
termination_by 2 * c.left + 1
decreasing_by all_goals omega
end

end Reading

end Bracework
