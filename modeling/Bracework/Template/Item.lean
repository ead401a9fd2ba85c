/-
Templates — a source as a flat sequence of items.

An item is a complete statement without content, or a mark that opens, divides
or closes something.  Scanning never looks at what is open: whether the marks
match is the business of the layer above, which reads the items in order.  The
items before the first fault are kept, because a mark that does not match may
stand before it.
-/
import Bracework.Template.Reading.Tag

namespace Bracework

/-- A piece of a source. -/
inductive Item where
  | leaf (statement : Statement)
  | openTag (tag : OpeningTag)
  | closeTag (name : String) (span : Span)
  | openBlock (head : BlockHead)
  | elseMark (chained : Option BlockHead) (span : Span)
  | closeBlock (name : String) (span : Span)
deriving Inhabited

namespace Reading

/-! ## Items one by one -/

/-- Reads a closing tag; no blank may stand before its name. -/
def closingTag (c : Cursor) : Reading (Step c Item) := do
  let d := c.advance Token.closingTagOpen.length
  let closed ← (d.skip Token.isTagChar).skipSpace.expect Token.tagClose (by decide)
  return ⟨.closeTag (String.ofList (d.taken Token.isTagChar)) (closed.next.spanFrom c.offset),
    closed.next, by
      have h1 := Cursor.left_advance c Token.closingTagOpen.length
      have h2 := Cursor.left_skip_le d Token.isTagChar
      have h3 := Cursor.left_skipSpace_le (d.skip Token.isTagChar)
      have h4 := closed.further
      have h5 : d.left = (c.advance Token.closingTagOpen.length).left := rfl
      omega⟩

theorem left_behindClosedName_le (c : Cursor) :
    ((c.advance Token.blockClose.length).skipSpace.skip Token.isPathChar).skipSpace.left ≤
      c.left :=
  Nat.le_trans (Cursor.left_skipSpace_le _) (Nat.le_trans (Cursor.left_skip_le ..)
    (Nat.le_trans (Cursor.left_skipSpace_le _) (c.left_advance_le _)))

/-- Reads the mark that closes a block. -/
def closingBlock (c : Cursor) : Reading (Step c Item) := do
  let d := (c.advance Token.blockClose.length).skipSpace
  let closed ← (d.skip Token.isPathChar).skipSpace.expect Token.mustacheClose Token.mustacheClose_ne_nil
  return ⟨.closeBlock (String.ofList (d.taken Token.isPathChar)) (closed.next.spanFrom c.offset),
    closed.next, Nat.lt_of_lt_of_le closed.further (left_behindClosedName_le c)⟩

/-- Reads an else mark, bare or with the head of a chained block. -/
def elseItem (c : Cursor) : Reading (Step c Item) :=
  have hd : (c.advance Token.elseOpen.length).skipSpace.left ≤ c.left :=
    Nat.le_trans (Cursor.left_skipSpace_le _) (c.left_advance_le _)
  if hs : (c.advance Token.elseOpen.length).skipSpace.startsWith Token.mustacheClose = true then
    let next := (c.advance Token.elseOpen.length).skipSpace.advance 2
    .ok ⟨.elseMark none (next.spanFrom c.offset), next,
      Nat.lt_of_lt_of_le (Cursor.left_advance_lt Token.mustacheClose_ne_nil hs) hd⟩
  else do
    let head ← blockHead (c.advance Token.elseOpen.length).skipSpace c.offset
    let closed ← head.next.expect Token.mustacheClose Token.mustacheClose_ne_nil
    return ⟨.elseMark (some head.value) (closed.next.spanFrom c.offset), closed.next,
      Nat.lt_trans closed.further (Nat.lt_of_lt_of_le head.further hd)⟩

/-- Reads the opening mark of a block. -/
def openingBlock (c : Cursor) : Reading (Step c Item) := do
  let head ← blockHead (c.advance Token.blockOpen.length).skipSpace c.offset
  let closed ← head.next.expect Token.mustacheClose Token.mustacheClose_ne_nil
  return ⟨.openBlock head.value, closed.next,
    Nat.lt_trans closed.further (Nat.lt_of_lt_of_le head.further
      (Nat.le_trans (Cursor.left_skipSpace_le _) (c.left_advance_le _)))⟩

theorem left_afterComment_lt {c : Cursor} {opening closing value after : List Char}
    (ho : opening ≠ [] ∧ c.startsWith opening = true)
    (h : splitAtFirst? closing (c.advance opening.length).rest = some (value, after)) :
    after.length < c.left := by
  have hlength := congrArg List.length (append_of_splitAtFirst? h)
  have hadvance := Cursor.left_advance_lt ho.1 ho.2
  simp only [List.length_append] at hlength
  simp only [Cursor.left] at *
  omega

/-- Reads a comment with the given delimiters, the opening one already recognised. -/
def commentBetween (c : Cursor) (html : Bool) (opening closing : List Char)
    (ho : opening ≠ [] ∧ c.startsWith opening = true) : Reading (Step c Item) :=
  match h : splitAtFirst? closing (c.advance opening.length).rest with
  | none => .error (c.endsWithout (.commentClose (String.ofList closing)))
  | some (value, after) =>
      let next : Cursor :=
        ⟨after, (c.advance opening.length).offset + utf8Length value + utf8Length closing⟩
      .ok ⟨.leaf (.comment ⟨String.ofList value, html, next.spanFrom c.offset⟩), next,
        left_afterComment_lt ho h⟩

/-- The characters that continue a run of text, up to a curly mark, a tag or a comment. -/
def textTail : List Char → List Char
  | [] => []
  | c :: cs =>
      if Token.mustacheOpen.isPrefixOf (c :: cs) || Token.startsTag (c :: cs) ||
          Token.commentOpen.isPrefixOf (c :: cs) then []
      else c :: textTail cs

/-- Reads a run of text, whose first character is known to belong to it. -/
def textItem (c : Cursor) (first : Char) (others : List Char) (h : c.rest = first :: others) :
    Step c Item :=
  let chars := first :: textTail others
  let next := c.advance chars.length
  ⟨.leaf (.text ⟨String.ofList chars, next.spanFrom c.offset⟩), next, by
    have h1 := Cursor.left_advance c chars.length
    have h2 : 0 < c.left := by simp [Cursor.left, h]
    simp only [next, chars, List.length_cons] at *
    omega⟩

/-- Reads the item here.  The order of the tests settles which of the marks with
a common beginning it is. -/
def item (c : Cursor) (first : Char) (others : List Char) (h : c.rest = first :: others) :
    Reading (Step c Item) :=
  if c.startsWith Token.closingTagOpen then closingTag c
  else if c.startsWith Token.blockClose then closingBlock c
  else if Token.startsElse c.rest then elseItem c
  else if hl : c.startsWith Token.longRemarkOpen = true then
    commentBetween c false Token.longRemarkOpen Token.longRemarkClose ⟨by decide, hl⟩
  else if hr : c.startsWith Token.remarkOpen = true then
    commentBetween c false Token.remarkOpen Token.mustacheClose ⟨by decide, hr⟩
  else if c.startsWith Token.blockOpen then openingBlock c
  else if c.startsWith Token.mustacheOpen then do
    let m ← mustache c
    return ⟨.leaf (.mustache m.value), m.next, m.further⟩
  else if hc : c.startsWith Token.commentOpen = true then
    commentBetween c true Token.commentOpen Token.commentClose ⟨by decide, hc⟩
  else if Token.startsTag c.rest then do
    let tag ← openingTag c
    return ⟨.openTag tag.value, tag.next, tag.further⟩
  else .ok (textItem c first others h)

end Reading

/-! ## The whole source -/

/-- The items of a source up to its end or up to the first fault. -/
structure Scan where
  items : List Item
  fault : Option ParseError

/-- The items from a place on. -/
def Scan.run (c : Cursor) : Scan :=
  match h : c.rest with
  | [] => ⟨[], none⟩
  | first :: others =>
      match Reading.item c first others h with
      | .error e => ⟨[], some e⟩
      | .ok s =>
          have := s.further
          let later := Scan.run s.next
          ⟨s.value :: later.items, later.fault⟩
termination_by c.left

end Bracework
