/-
Templates — reading mustaches, block heads and opening tags.

An opening tag holds attributes and modifiers in any order up to its end.  A
quoted attribute value is cut into runs of text and mustaches; a value that is
one run of text is plain text.
-/
import Bracework.Template.Reading.Expression

namespace Bracework

/-- The head of a block statement: its call and the parameters of its program. -/
structure BlockHead where
  call : Call
  params : List String
  start : Nat
deriving Inhabited

/-- An opening tag. -/
structure OpeningTag where
  tag : String
  attributes : List Attribute
  modifiers : List Mustache
  selfClosing : Bool
  span : Span
deriving Inhabited

namespace Reading

/-! ## Mustaches and block heads -/

/-- Reads a mustache with the given delimiters. -/
def mustacheBetween (c : Cursor) (trusting : Bool) (opening closing : List Char)
    (ho : opening ≠ []) (hc : closing ≠ []) : Reading (Step c Mustache) := do
  let opened ← c.expect opening ho
  let inner ← call opened.next.skipSpace c.offset
  let closed ← inner.next.skipSpace.expect closing hc
  return ⟨⟨inner.value, trusting, closed.next.spanFrom c.offset⟩, closed.next, by
    have h1 := opened.further
    have h2 := Cursor.left_skipSpace_le opened.next
    have h3 := inner.further
    have h4 := Cursor.left_skipSpace_le inner.next
    have h5 := closed.further
    omega⟩

/-- Reads a mustache; a third opening brace makes it a trusting one. -/
def mustache (c : Cursor) : Reading (Step c Mustache) :=
  if c.startsWith Token.trustingOpen then
    mustacheBetween c true Token.trustingOpen Token.trustingClose (by decide) (by decide)
  else
    mustacheBetween c false Token.mustacheOpen Token.mustacheClose (by decide)
      Token.mustacheClose_ne_nil

/-- Reads block parameters up to and with the closing bar. -/
def paramNames (c : Cursor) : Reading (Step c (List String)) :=
  have hd := Cursor.left_skipSpace_le c
  if hb : c.skipSpace.startsWith Token.paramsBar = true then
    .ok ⟨[], c.skipSpace.advance 1, by
      have h1 := Cursor.left_pos_of_startsWith hb
      have h2 := Cursor.left_advance c.skipSpace 1
      simp only [Token.paramsBar, List.length_cons, List.length_nil] at h1
      omega⟩
  else if hn : c.skipSpace.taken Token.isNameChar = [] then
    .error (Cursor.unexpected .noBlockParam c.skipSpace.here)
  else do
    have hs : (c.skipSpace.skip Token.isNameChar).left < c.skipSpace.left := by
      have h1 := congrArg List.length
        (List.takeWhile_append_dropWhile (p := Token.isNameChar) (l := c.skipSpace.rest))
      have h2 := List.length_pos_iff.mpr hn
      simp only [List.length_append, Cursor.taken] at h1 h2
      simp only [Cursor.left, Cursor.skip]
      omega
    let others ← paramNames (c.skipSpace.skip Token.isNameChar)
    return ⟨String.ofList (c.skipSpace.taken Token.isNameChar) :: others.value, others.next, by
      have := others.further
      omega⟩
termination_by c.left

/-- Reads block parameters if they are introduced here. -/
def blockParams (c : Cursor) : Reading (Move c (List String)) :=
  if c.startsWith Token.paramsOpen then do
    let bar ← (c.advance Token.paramsOpen.length).skipSpace.expect Token.paramsBar (by decide)
    let names ← paramNames bar.next
    return ⟨names.value, names.next.skipSpace, by
      have h1 := Cursor.left_skipSpace_le (c.advance Token.paramsOpen.length)
      have h2 := Cursor.left_advance c Token.paramsOpen.length
      have h3 := bar.further
      have h4 := names.further
      have h5 := Cursor.left_skipSpace_le names.next
      omega⟩
  else .ok ⟨[], c, Nat.le_refl _⟩

/-- Reads the head of a block statement that started at an earlier offset. -/
def blockHead (c : Cursor) (start : Nat) : Reading (Step c BlockHead) := do
  let inner ← call c start
  let params ← blockParams inner.next.skipSpace
  return ⟨⟨inner.value, params.value, start⟩, params.next, by
    have h1 := inner.further
    have h2 := Cursor.left_skipSpace_le inner.next
    have h3 := params.further
    omega⟩

/-! ## Attributes -/

/-- The text of a quoted value up to its quote, to a mustache, or to the end. -/
def partText (quote : Char) : List Char → List Char
  | [] => []
  | c :: cs =>
      if c = quote ∨ Token.mustacheOpen.isPrefixOf (c :: cs) then [] else c :: partText quote cs

/-- A run of text as a piece of a value; an empty run is none. -/
def textPart (text : List Char) (span : Span) : List AttributePart :=
  if text = [] then [] else [.text ⟨String.ofList text, span⟩]

/-- Reads the pieces of a quoted value, behind its opening quote, up to and with the closing one. -/
def parts (quote : Char) (c : Cursor) : Reading (Step c (List AttributePart)) :=
  let text := partText quote c.rest
  let front := textPart text ((c.advance text.length).spanFrom c.offset)
  have hd : (c.advance text.length).left ≤ c.left := c.left_advance_le text.length
  match h : (c.advance text.length).rest with
  | [] => .error (c.endsWithout (.attributeQuote quote))
  | first :: _ =>
      if first = quote then
        .ok ⟨front, (c.advance text.length).advance 1,
          Nat.lt_of_lt_of_le (left_advance_one h) hd⟩
      else do
        let m ← mustache (c.advance text.length)
        have hm := m.further
        let others ← parts quote m.next
        return ⟨front ++ .mustache m.value :: others.value, others.next,
          Nat.lt_trans others.further (Nat.lt_of_lt_of_le hm hd)⟩
termination_by c.left

/-- The value that the pieces between two quotes make up; `span` covers the quotes. -/
def valueOfParts (span : Span) : List AttributePart → AttributeValue
  | [] => .text ⟨"", span⟩
  | [.text t] => .text t
  | pieces => .concat pieces

/-- Reads an attribute value: a mustache, pieces in quotes, or a bare word. -/
def attributeValue (c : Cursor) : Reading (Move c AttributeValue) :=
  if c.startsWith Token.mustacheOpen then do
    let m ← mustache c
    return ⟨.mustache m.value, m.next, Nat.le_of_lt m.further⟩
  else match c.rest with
    | quote :: _ =>
        if quote = '"' ∨ quote = '\'' then do
          let pieces ← parts quote (c.advance 1)
          return ⟨valueOfParts (pieces.next.spanFrom c.offset) pieces.value, pieces.next,
            Nat.le_trans (Nat.le_of_lt pieces.further) (c.left_advance_le 1)⟩
        else .ok (bareValue c)
    | [] => .ok (bareValue c)
where
  /-- The word here, possibly empty. -/
  bareValue (c : Cursor) : Move c AttributeValue :=
    let next := c.skip (fun x => !Token.endsBareValue x)
    ⟨.text ⟨String.ofList (c.taken fun x => !Token.endsBareValue x), next.spanFrom c.offset⟩, next,
      c.left_skip_le _⟩

/-- Reads the equals sign and the value of an attribute, or takes the value to be empty. -/
def attributeTail (c : Cursor) : Reading (Move c AttributeValue) :=
  if c.startsWith Token.equals then do
    let value ← attributeValue (c.advance 1).skipSpace
    return ⟨value.value, value.next, by
      have h1 := value.further
      have h2 := Cursor.left_skipSpace_le (c.advance 1)
      have h3 := Cursor.left_advance c 1
      omega⟩
  else .ok ⟨.text ⟨"", c.here⟩, c, Nat.le_refl _⟩

/-- Reads an attribute, whose first character is known. -/
def tagAttribute (c : Cursor) (first : Char) : Reading (Step c Attribute) :=
  if hn : c.taken (fun x => !Token.endsAttributeName x) = [] then
    .error (Cursor.unexpected (.inTag first) c.here)
  else do
    have hs : (c.skip fun x => !Token.endsAttributeName x).left < c.left := by
      have h1 := congrArg List.length
        (List.takeWhile_append_dropWhile (p := fun x => !Token.endsAttributeName x) (l := c.rest))
      have h2 := List.length_pos_iff.mpr hn
      simp only [List.length_append, Cursor.taken] at h1 h2
      simp only [Cursor.left, Cursor.skip]
      omega
    let value ← attributeTail (c.skip fun x => !Token.endsAttributeName x).skipSpace
    return ⟨⟨String.ofList (c.taken fun x => !Token.endsAttributeName x), value.value,
        value.next.spanFrom c.offset⟩, value.next, by
      have h1 := value.further
      have h2 := Cursor.left_skipSpace_le (c.skip fun x => !Token.endsAttributeName x)
      omega⟩

/-! ## Opening tags -/

/-- What stands between a tag's name and its end, and whether the end is self-closing. -/
structure TagBody where
  attributes : List Attribute
  modifiers : List Mustache
  selfClosing : Bool

/-- Reads attributes and modifiers up to and with the end of a tag that started at `start`. -/
def tagBody (tag : String) (start : Nat) (c : Cursor) : Reading (Step c TagBody) :=
  have hd := Cursor.left_skipSpace_le c
  match h : c.skipSpace.rest with
  | [] => .error ⟨.unclosedElement tag, c.skipSpace.spanFrom start⟩
  | first :: _ =>
      if hs : c.skipSpace.startsWith Token.selfClose = true then
        .ok ⟨⟨[], [], true⟩, c.skipSpace.advance 2, by
          have h1 := Cursor.left_pos_of_startsWith hs
          have h2 := Cursor.left_advance c.skipSpace 2
          simp only [Token.selfClose, List.length_cons, List.length_nil] at h1
          omega⟩
      else if first = '>' then
        .ok ⟨⟨[], [], false⟩, c.skipSpace.advance 1, by
          have h1 := left_advance_one h
          omega⟩
      else if c.skipSpace.startsWith Token.mustacheOpen then do
        let m ← mustache c.skipSpace
        have hm := m.further
        let others ← tagBody tag start m.next
        return ⟨{ others.value with modifiers := m.value :: others.value.modifiers }, others.next, by
          have := others.further
          omega⟩
      else do
        let a ← tagAttribute c.skipSpace first
        have ha := a.further
        let others ← tagBody tag start a.next
        return ⟨{ others.value with attributes := a.value :: others.value.attributes }, others.next,
          by
            have := others.further
            omega⟩
termination_by c.left

/-- Reads an opening tag. -/
def openingTag (c : Cursor) : Reading (Step c OpeningTag) := do
  let opened ← c.expect Token.tagOpen (by decide)
  let tag := String.ofList (opened.next.taken Token.isTagChar)
  let body ← tagBody tag c.offset (opened.next.skip Token.isTagChar)
  return ⟨⟨tag, body.value.attributes, body.value.modifiers, body.value.selfClosing,
      body.next.spanFrom c.offset⟩, body.next, by
    have h1 := opened.further
    have h2 := opened.next.left_skip_le Token.isTagChar
    have h3 := body.further
    omega⟩

end Reading

end Bracework
