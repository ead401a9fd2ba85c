/-
Templates — a place in a source, and steps that move it on.

A cursor holds what is left of the source and how many bytes lie before it.
A step returns its value together with a cursor that is further on, and the
proof of it: that is what the loops of the reader end by.
-/
import Bracework.Template.ParseError
import Bracework.Template.Token

namespace Bracework

/-- A place in a source. -/
structure Cursor where
  rest : List Char
  offset : Nat
deriving DecidableEq, Repr

namespace Cursor

/-- The beginning of a source. -/
def ofChars (source : List Char) : Cursor := ⟨source, 0⟩

/-- The number of characters that are left. -/
def left (c : Cursor) : Nat := c.rest.length

/-- The offset of the end of the source. -/
def limit (c : Cursor) : Nat := c.offset + utf8Length c.rest

/-- The place some characters further on. -/
def advance (c : Cursor) (count : Nat) : Cursor :=
  ⟨c.rest.drop count, c.offset + utf8Length (c.rest.take count)⟩

/-- Whether the rest starts with a text. -/
def startsWith (c : Cursor) (token : List Char) : Bool := token.isPrefixOf c.rest

/-- The characters at the head of the rest that satisfy a test. -/
def taken (c : Cursor) (test : Char → Bool) : List Char := c.rest.takeWhile test

/-- The place behind the characters that satisfy a test. -/
def skip (c : Cursor) (test : Char → Bool) : Cursor :=
  ⟨c.rest.dropWhile test, c.offset + utf8Length (c.rest.takeWhile test)⟩

/-- The place behind blank characters. -/
def skipSpace (c : Cursor) : Cursor := c.skip CharClass.isSpace

/-- The span from an earlier offset to here. -/
def spanFrom (c : Cursor) (start : Nat) : Span := ⟨start, c.offset⟩

/-- The empty span here. -/
def here (c : Cursor) : Span := ⟨c.offset, c.offset⟩

/-- The error of a source that ends too early. -/
def endsWithout (c : Cursor) (missing : Missing) : ParseError :=
  ⟨.endOfInput missing, ⟨c.limit, c.limit⟩⟩

/-- The error for something that cannot stand at a span. -/
def unexpected (what : Surprise) (span : Span) : ParseError := ⟨.unexpected what, span⟩

theorem left_skip_le (c : Cursor) (test : Char → Bool) : (c.skip test).left ≤ c.left :=
  (List.dropWhile_suffix test).sublist.length_le

theorem left_skipSpace_le (c : Cursor) : c.skipSpace.left ≤ c.left := c.left_skip_le _

theorem left_advance (c : Cursor) (count : Nat) : (c.advance count).left = c.left - count := by
  simp [advance, left]

theorem left_advance_le (c : Cursor) (count : Nat) : (c.advance count).left ≤ c.left :=
  c.left_advance count ▸ Nat.sub_le ..

theorem left_pos_of_startsWith {c : Cursor} {token : List Char} (h : c.startsWith token = true) :
    token.length ≤ c.left :=
  (List.isPrefixOf_iff_prefix.mp h).length_le

theorem left_advance_lt {c : Cursor} {token : List Char} (h : token ≠ [])
    (hs : c.startsWith token = true) : (c.advance token.length).left < c.left := by
  have hpos := List.length_pos_iff.mpr h
  have hle := left_pos_of_startsWith hs
  rw [left_advance]
  omega

end Cursor

/-- A value read at a cursor, and a place strictly further on. -/
structure Step (c : Cursor) (α : Type) where
  value : α
  next : Cursor
  further : next.left < c.left

/-- A value read at a cursor, and a place not before it. -/
structure Move (c : Cursor) (α : Type) where
  value : α
  next : Cursor
  further : next.left ≤ c.left

/-- The result of reading: a value, or the first error. -/
abbrev Reading (α : Type) : Type := Except ParseError α

namespace Cursor

/-- Reads a delimiter, which must stand here. -/
def expect (c : Cursor) (token : List Char) (h : token ≠ []) : Reading (Step c Unit) :=
  if hs : c.startsWith token = true then
    .ok ⟨(), c.advance token.length, left_advance_lt h hs⟩
  else match c.rest with
    | [] => .error (c.endsWithout (.token (String.ofList token)))
    | found :: _ => .error (unexpected (.otherThan (String.ofList token) found) c.here)

end Cursor

end Bracework
