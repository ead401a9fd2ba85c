/-
TOML — reading documents.

Each reader takes the characters that are left and gives back what it read and
what follows, with the proof that this is shorter: the loops end by it.  There
is no need to tell what is wrong with a document, so a reader that fails just
has no result.  Arrays and tables written as values nest to a limited depth.
-/
import Bracework.Toml.Quoted
import Bracework.Toml.Table

namespace Bracework.Toml

/-- A value read from the head of a text, and what follows it. -/
structure Taken (cs : List Char) (α : Type) where
  value : α
  rest : List Char
  shorter : rest.length < cs.length

namespace Taken

variable {α : Type}

/-- What is read from a later place is read from an earlier one. -/
def weaken {cs ds : List Char} (h : ds.length ≤ cs.length) (t : Taken ds α) : Taken cs α :=
  ⟨t.value, t.rest, Nat.lt_of_lt_of_le t.shorter h⟩

end Taken

namespace Reader

/-! ## Blanks -/

def skipBlanks (cs : List Char) : List Char := cs.dropWhile Quoted.isBlank

theorem length_skipBlanks (cs : List Char) : (skipBlanks cs).length ≤ cs.length :=
  (List.dropWhile_suffix _).sublist.length_le

/-- What is left behind blanks, line ends and comments, `inComment` telling that a
comment is going on.  A comment has no control characters. -/
def skipLines (inComment : Bool) : List Char → Option (List Char)
  | [] => some []
  | '\n' :: cs => skipLines false cs
  | '\r' :: '\n' :: cs => skipLines false cs
  | c :: cs =>
      if inComment then (if Quoted.isTextChar c then skipLines true cs else none)
      else if Quoted.isBlank c then skipLines false cs
      else if c == '#' then skipLines true cs
      else some (c :: cs)

theorem length_skipLines {inComment : Bool} {cs rest : List Char}
    (h : skipLines inComment cs = some rest) : rest.length ≤ cs.length := by
  fun_induction skipLines inComment cs with
  | case1 => simp at h; simp [← h]
  | case2 _ cs ih | case3 _ cs ih =>
    have := ih h
    simp only [List.length_cons]
    omega
  | case4 | case6 | case7 =>
    rename_i ih
    have := ih h
    simp only [List.length_cons]
    omega
  | case5 => simp at h
  | case8 => simp at h; simp [← h]

/-- Whether nothing but a comment is left of the line. -/
def endsLine (cs : List Char) : Bool :=
  match skipBlanks cs with
  | [] => true
  | '#' :: _ => true
  | cs => Quoted.startsLineEnd cs

/-! ## Keys -/

/-- Characters of keys without quotes. -/
def isKeyChar (c : Char) : Bool := c.isAlphanum || c == '-' || c == '_'

theorem length_dropWhile_lt {p : Char → Bool} {cs : List Char} (h : cs.takeWhile p ≠ []) :
    (cs.dropWhile p).length < cs.length := by
  have h1 : 0 < (cs.takeWhile p).length := List.length_pos_iff.mpr h
  have h2 := congrArg List.length (List.takeWhile_append_dropWhile (p := p) (l := cs))
  rw [List.length_append] at h2
  omega

/-- The part of a key that stands here, in quotes or not. -/
def keyPart (cs : List Char) : Option (Taken cs String) :=
  if hw : cs.takeWhile isKeyChar ≠ [] then
    some ⟨String.ofList (cs.takeWhile isKeyChar), cs.dropWhile isKeyChar, length_dropWhile_lt hw⟩
  else match hq : Quoted.read? cs with
    | some (text, rest) =>
        if "\"\"\"".toList.isPrefixOf cs || "'''".toList.isPrefixOf cs then none
        else some ⟨String.ofList text, rest, Quoted.length_read? hq⟩
    | none => none

/-- The depth to which keys, arrays and tables nest. -/
def depthLimit : Nat := 80

/-- Parts of a key with dots between them and blanks around them. -/
def keyParts (cs : List Char) : Option (Taken cs Key) := do
  let part ← keyPart (skipBlanks cs)
  have hp := part.shorter
  have hc := length_skipBlanks cs
  have hr := length_skipBlanks part.rest
  match h : skipBlanks part.rest with
  | '.' :: rest =>
      have hl : rest.length < cs.length := by
        have := congrArg List.length h
        simp only [List.length_cons] at this
        omega
      let others ← keyParts rest
      return ⟨⟨part.value :: others.value.path, others.value.last⟩, others.rest, by
        have := others.shorter
        omega⟩
  | _ => return ⟨⟨[], part.value⟩, skipBlanks part.rest, by omega⟩
termination_by cs.length

/-- A key that does not nest too deep. -/
def key (cs : List Char) : Option (Taken cs Key) := do
  let k ← keyParts cs
  if depthLimit ≤ k.value.path.length then none else return k

/-! ## Values -/

/-- Characters that continue a value that does not start with a quote. -/
def isBareChar (c : Char) : Bool :=
  !Quoted.isBlank c && c != '\n' && c != '\r' &&
    !(['[', ']', '\x7b', '\x7d', ',', '#', '='] : List Char).contains c

/-- Whether a value without quotes goes on behind blanks: what follows them is no mark
and no text in quotes. -/
def goesOn (cs : List Char) : Bool :=
  match skipBlanks cs with
  | [] => false
  | c :: _ => isBareChar c && c != '"' && c != '\''

/-- The value without quotes that stands here.  It may have blanks inside, as between a
date and a time. -/
def word : List Char → List Char
  | [] => []
  | c :: cs => if isBareChar c || Quoted.isBlank c && goesOn cs then c :: word cs else []

/-- A value without quotes. -/
def bare (cs : List Char) : Option (Taken cs Value) :=
  if hw : word cs ≠ [] then
    (Scalar.read? (word cs)).map fun v => ⟨v, cs.drop (word cs).length, by
      have h1 := List.length_pos_iff.mpr hw
      have h2 : 0 < cs.length := by
        cases cs with
        | nil => exact absurd rfl hw
        | cons => simp
      rw [List.length_drop]
      omega⟩
  else none

/-- A text in quotes. -/
def quoted (cs : List Char) : Option (Taken cs Value) :=
  match h : Quoted.read? cs with
  | some (text, rest) => some ⟨.string (String.ofList text), rest, Quoted.length_read? h⟩
  | none => none

/-- What is left behind blanks, line ends and comments. -/
def skipped (cs : List Char) : Option { rest : List Char // rest.length ≤ cs.length } :=
  match h : skipLines false cs with
  | some rest => some ⟨rest, length_skipLines h⟩
  | none => none

mutual
/-- A value at some depth. -/
def value (depth : Nat) (cs : List Char) : Option (Taken cs Value) :=
  match h : cs with
  | '[' :: rest =>
      if depth = depthLimit then none
      else do
        let items ← items (depth + 1) rest
        return ⟨.array items.value, items.rest, by
          have := items.shorter
          simp only [List.length_cons]
          omega⟩
  | '\x7b' :: rest =>
      if depth = depthLimit then none
      else do
        let entries ← entries (depth + 1) rest
        return ⟨← Value.ofEntries? entries.value, entries.rest, by
          have := entries.shorter
          simp only [List.length_cons]
          omega⟩
  | '"' :: _ => quoted _
  | '\'' :: _ => quoted _
  | _ => bare _
termination_by 2 * cs.length

/-- The items of an array from here to its end. -/
def items (depth : Nat) (cs : List Char) : Option (Taken cs (List Value)) := do
  let start ← skipped cs
  match hs : start.val with
  | ']' :: rest => return ⟨[], rest, by
      have := start.property
      simp only [hs, List.length_cons] at this
      omega⟩
  | _ =>
      have hb := start.property
      let v ← value depth start.val
      have hv := v.shorter
      let next ← skipped v.rest
      have hn := next.property
      match hx : next.val with
      | ',' :: rest =>
          have hl := congrArg List.length hx
          let others ← items depth rest
          return ⟨v.value :: others.value, others.rest, by
            have := others.shorter
            simp only [List.length_cons] at hl
            omega⟩
      | ']' :: rest => return ⟨[v.value], rest, by
          have hl := congrArg List.length hx
          simp only [List.length_cons] at hl
          omega⟩
      | _ => none
termination_by 2 * cs.length + 1
decreasing_by
  · omega
  · simp only [List.length_cons] at hl; omega

/-- The entries of a table written as a value, from here to its end.  Lines may end
before and behind an equals sign, but not inside a key. -/
def entries (depth : Nat) (cs : List Char) : Option (Taken cs (List Entry)) := do
  let start ← skipped cs
  match hs : start.val with
  | '\x7d' :: rest => return ⟨[], rest, by
      have := start.property
      simp only [hs, List.length_cons] at this
      omega⟩
  | _ =>
      have hb := start.property
      let k ← key start.val
      have hk := k.shorter
      let mark ← skipped k.rest
      have hm := mark.property
      match he : mark.val with
      | '=' :: rest =>
          have hq := congrArg List.length he
          let second ← skipped rest
          have hw := second.property
          let v ← value depth second.val
          have hv := v.shorter
          let next ← skipped v.rest
          have hn := next.property
          match hx : next.val with
          | ',' :: rest =>
              have hl := congrArg List.length hx
              let others ← entries depth rest
              return ⟨⟨k.value, v.value⟩ :: others.value, others.rest, by
                have := others.shorter
                simp only [List.length_cons] at hl hq
                omega⟩
          | '\x7d' :: rest => return ⟨[⟨k.value, v.value⟩], rest, by
              have hl := congrArg List.length hx
              simp only [List.length_cons] at hl hq
              omega⟩
          | _ => none
      | _ => none
termination_by 2 * cs.length + 1
decreasing_by
  · simp only [List.length_cons] at hq; omega
  · simp only [List.length_cons] at hl hq; omega
end

/-! ## Lines -/

/-- A line that is not empty. -/
inductive Line where
  | entry (entry : Entry)
  | header (double : Bool) (key : Key)

/-- A header behind its opening brackets. -/
def header (double : Bool) (cs : List Char) : Option (Taken cs Line) := do
  let k ← key cs
  have hk := k.shorter
  match double, h : k.rest with
  | true, ']' :: ']' :: rest => return ⟨.header true k.value, rest, by
      have := congrArg List.length h
      simp only [List.length_cons] at this
      omega⟩
  | false, ']' :: rest => return ⟨.header false k.value, rest, by
      have := congrArg List.length h
      simp only [List.length_cons] at this
      omega⟩
  | _, _ => none

/-- A key with its value. -/
def entry (cs : List Char) : Option (Taken cs Line) := do
  let k ← key cs
  have hk := k.shorter
  match h : k.rest with
  | '=' :: rest =>
      let v ← value 0 (skipBlanks rest)
      return ⟨.entry ⟨k.value, v.value⟩, v.rest, by
        have h1 := congrArg List.length h
        have h2 := length_skipBlanks rest
        have h3 := v.shorter
        simp only [List.length_cons] at h1
        omega⟩
  | _ => none

/-- The line that starts here. -/
def line (cs : List Char) : Option (Taken cs Line) :=
  match cs with
  | '[' :: '[' :: rest => (header true rest).map (·.weaken (Nat.le_add_right _ 2))
  | '[' :: rest => (header false rest).map (·.weaken (Nat.le_add_right _ 1))
  | cs => entry cs

/-- All lines that are not empty. -/
def lines (cs : List Char) : Option (List Line) := do
  let start ← skipped cs
  if start.val.isEmpty then return []
  else
    have _hb := start.property
    let l ← line start.val
    have _hl := l.shorter
    if endsLine l.rest then return l.value :: (← lines l.rest) else none
termination_by cs.length
decreasing_by omega

end Reader

/-! ## Documents -/

/-- Puts a line in front of a document. -/
def Document.withLine (l : Reader.Line) (d : Document) : Document :=
  match l with
  | .entry e => { d with entries := e :: d.entries }
  | .header double key => ⟨[], ⟨double, key, d.entries⟩ :: d.sections⟩

/-- The table that a text denotes, if it is a document.  A byte order mark in front
does not count. -/
def read? (text : String) : Option (List (String × Value)) := do
  let cs := match text.toList with
    | '\ufeff' :: cs => cs
    | cs => cs
  let lines ← Reader.lines cs
  (lines.foldr Document.withLine ⟨[], []⟩).table?

end Bracework.Toml
