/-
JSON text — different values have different indented texts.

Nothing is read here.  Two texts are laid side by side, each with something behind
it, and as long as both stop where a value can stop, at the end, at a comma or at a
line end, equal characters come from equal values and leave the same rest.  For the
words, `null`, the truth values and the numbers, that is because none of their
characters may stand behind a value; for strings because what an escape stands for
is told by its own characters; for arrays and objects by induction on the value.
-/
import Bracework.Proofs.Number.Distinct

namespace Bracework.Json

/-! ## Strings -/

/-- The value of a hexadecimal digit in lower case. -/
def hexValue (c : Char) : Nat := if c.isDigit then c.toNat - '0'.toNat else c.toNat - 'a'.toNat + 10

theorem hexValue_hexDigit (n : Nat) : hexValue (hexDigit n) = n % 16 := by
  have hall : ∀ d < 16, hexValue (Nat.digitChar d) = d := by decide
  exact hall (n % 16) (Nat.mod_lt n (by decide))

/-- The character that the head of a string's text stands for, and what follows it. -/
def unescape? : List Char → Option (Char × List Char)
  | '\\' :: 'u' :: '0' :: '0' :: high :: low :: rest =>
      some (Char.ofNat (16 * hexValue high + hexValue low), rest)
  | '\\' :: 'b' :: rest => some ('\x08', rest)
  | '\\' :: 'f' :: rest => some ('\x0c', rest)
  | '\\' :: 'n' :: rest => some ('\n', rest)
  | '\\' :: 'r' :: rest => some ('\r', rest)
  | '\\' :: 't' :: rest => some ('\t', rest)
  | '\\' :: c :: rest => some (c, rest)
  | c :: rest => some (c, rest)
  | [] => none

theorem unescape?_cons {c : Char} (h : c ≠ '\\') (rest : List Char) :
    unescape? (c :: rest) = some (c, rest) := by
  rw [unescape?.eq_def]
  split <;> simp_all

/-- What a character is written as tells the character and ends where it should. -/
theorem unescape?_escape (c : Char) (rest : List Char) :
    unescape? (escape c ++ rest) = some (c, rest) := by
  by_cases hnamed : c = '"' ∨ c = '\\' ∨ c = '\x08' ∨ c = '\x0c' ∨ c = '\n' ∨ c = '\r' ∨ c = '\t'
  · rcases hnamed with rfl | rfl | rfl | rfl | rfl | rfl | rfl <;> rfl
  · obtain ⟨hquote, hslash, hb, hf, hn, hr, ht⟩ : c ≠ '"' ∧ c ≠ '\\' ∧ c ≠ '\x08' ∧ c ≠ '\x0c' ∧
        c ≠ '\n' ∧ c ≠ '\r' ∧ c ≠ '\t' := by
      simpa only [not_or] using hnamed
    rw [escape, if_neg hquote, if_neg hslash, if_neg hb, if_neg hf, if_neg hn, if_neg hr, if_neg ht]
    split
    case isTrue hcontrol =>
      have hlow : c.toNat < 32 := hcontrol
      have hvalue : 16 * (c.toNat / 16 % 16) + c.toNat % 16 = c.toNat := by omega
      show some (Char.ofNat (16 * hexValue (hexDigit (c.toNat / 16)) +
        hexValue (hexDigit c.toNat)), rest) = some (c, rest)
      rw [hexValue_hexDigit, hexValue_hexDigit, hvalue, Char.ofNat_toNat]
    case isFalse => exact unescape?_cons hslash rest

theorem escape_ne_quote {c : Char} {rest tail : List Char} : escape c ++ rest ≠ '"' :: tail := by
  intro h
  have hc : c = '"' := by
    have hread := unescape?_escape c rest
    rw [h] at hread
    exact (Prod.mk.inj (Option.some.inj hread)).1.symm
  rw [hc] at h
  cases (List.cons.inj h).1

/-- A string is read off its text, and so is where it ends. -/
theorem escaped_append_inj {as bs r s : List Char}
    (h : as.flatMap escape ++ '"' :: r = bs.flatMap escape ++ '"' :: s) : as = bs ∧ r = s := by
  induction as generalizing bs with
  | nil =>
      cases bs with
      | nil => exact ⟨rfl, (List.cons.inj h).2⟩
      | cons b bs =>
          rw [List.flatMap_cons, List.append_assoc] at h
          exact absurd h.symm escape_ne_quote
  | cons a as ih =>
      rw [List.flatMap_cons, List.append_assoc] at h
      cases bs with
      | nil => exact absurd h escape_ne_quote
      | cons b bs =>
          rw [List.flatMap_cons, List.append_assoc] at h
          have hread := congrArg unescape? h
          rw [unescape?_escape, unescape?_escape] at hread
          obtain ⟨rfl, hrest⟩ := Prod.mk.inj (Option.some.inj hread)
          obtain ⟨rfl, hrs⟩ := ih hrest
          exact ⟨rfl, hrs⟩

theorem quoted_append_inj {a b : String} {r s : List Char} (h : quoted a ++ r = quoted b ++ s) :
    a = b ∧ r = s := by
  simp only [quoted, List.cons_append, List.append_assoc, List.nil_append] at h
  obtain ⟨hchars, hrs⟩ := escaped_append_inj (List.cons.inj h).2
  exact ⟨String.toList_injective hchars, hrs⟩

/-! ## Words -/

/-- What may stand behind a value: nothing, or a comma or a line end and more. -/
def Ends (r : List Char) : Prop := ∀ c ∈ r.head?, c = ',' ∨ c = '\n'

theorem ends_nil : Ends [] := nofun

/-- The text of a value that has a name. -/
def name? : Json → Option (List Char)
  | .null => some ['n', 'u', 'l', 'l']
  | .bool true => some ['t', 'r', 'u', 'e']
  | .bool false => some ['f', 'a', 'l', 's', 'e']
  | _ => none

/-- The text of a number. -/
def number? : Json → Option (List Char)
  | .whole n => some (wholeText n)
  | .real negative code => some (NumberFormat.json.finiteText negative code.val)
  | _ => none

/-- The text of a value that is a single word. -/
def word? (v : Json) : Option (List Char) := v.name?.or v.number?

theorem name?_inj {v w : Json} {text : List Char} (hv : v.name? = some text)
    (hw : w.name? = some text) : v = w := by
  cases v with
  | null =>
      cases hv
      cases w with
      | null => rfl
      | bool b => cases b <;> cases hw
      | whole | real | string | array | object => cases hw
  | bool b =>
      cases w with
      | null => cases hw; cases b <;> cases hv
      | bool b' =>
          cases b <;> cases b' <;> cases hv <;> cases hw
          · rfl
          · rfl
      | whole | real | string | array | object => cases hw
  | whole | real | string | array | object => cases hv

theorem number?_inj {v w : Json} {text : List Char} (hv : v.number? = some text)
    (hw : w.number? = some text) : v = w := by
  have htexts : v.number? = w.number? := hv.trans hw.symm
  cases v with
  | whole n =>
      cases w with
      | whole n' => rw [wholeText_inj (Option.some.inj htexts)]
      | real => exact absurd (Option.some.inj htexts) wholeText_ne_finiteText
      | null | bool | string | array | object => cases hw
  | real negative code =>
      cases w with
      | whole => exact absurd (Option.some.inj htexts).symm wholeText_ne_finiteText
      | real negative' code' =>
          obtain ⟨rfl, hcode⟩ := NumberFormat.json_finiteText_inj (Option.some.inj htexts)
          rw [Fin.ext hcode]
      | null | bool | string | array | object => cases hw
  | null | bool | string | array | object => cases hv

theorem isNumberChar_of_number? {v : Json} {text : List Char} (h : v.number? = some text) :
    ∀ c ∈ text, isNumberChar c = true := by
  cases v with
  | whole n => cases h; exact isNumberChar_wholeText n
  | real negative code => cases h; exact NumberFormat.isNumberChar_finiteText negative code.val
  | null | bool | string | array | object => cases h

/-- A name starts with a letter that no number has. -/
theorem exists_cons_of_name? {v : Json} {text : List Char} (h : v.name? = some text) :
    ∃ c cs, text = c :: cs ∧ isNumberChar c = false := by
  cases v with
  | null => cases h; exact ⟨_, _, rfl, rfl⟩
  | bool b => cases b <;> cases h <;> exact ⟨_, _, rfl, rfl⟩
  | whole | real | string | array | object => cases h

theorem not_number_of_name? {v w : Json} {text : List Char} (hv : v.name? = some text)
    (hw : w.number? = some text) : False := by
  obtain ⟨c, cs, rfl, hc⟩ := exists_cons_of_name? hv
  rw [isNumberChar_of_number? hw c List.mem_cons_self] at hc
  cases hc

/-- A value that is a word is told by the word. -/
theorem word?_inj {v w : Json} {text : List Char} (hv : v.word? = some text)
    (hw : w.word? = some text) : v = w := by
  rcases Option.or_eq_some_iff.mp hv with hv | ⟨-, hv⟩ <;>
    rcases Option.or_eq_some_iff.mp hw with hw | ⟨-, hw⟩
  · exact name?_inj hv hw
  · exact (not_number_of_name? hv hw).elim
  · exact (not_number_of_name? hw hv).elim
  · exact number?_inj hv hw

/-- The characters of words. -/
def isWordChar (c : Char) : Bool := isNumberChar c || c.isAlpha

/-- The characters of names are letters. -/
theorem isAlpha_of_name? {v : Json} {text : List Char} (h : v.name? = some text) :
    ∀ c ∈ text, c.isAlpha = true := by
  rw [← List.all_eq_true]
  cases v with
  | null => cases h; rfl
  | bool b => cases b <;> cases h <;> rfl
  | whole | real | string | array | object => cases h

theorem isWordChar_of_word? {v : Json} {text : List Char} (h : v.word? = some text) :
    ∀ c ∈ text, isWordChar c = true := by
  intro c hc
  rw [isWordChar, Bool.or_eq_true]
  rcases Option.or_eq_some_iff.mp h with hname | ⟨-, hnumber⟩
  · exact .inr (isAlpha_of_name? hname c hc)
  · exact .inl (isNumberChar_of_number? hnumber c hc)

theorem Ends.not_isWordChar {c : Char} {r : List Char} (h : Ends (c :: r)) :
    isWordChar c = false := by
  rcases h c rfl with rfl | rfl <;> rfl

/-- Where a word ends is told by what stands behind it. -/
theorem word_append_inj {a b r s : List Char} (ha : ∀ c ∈ a, isWordChar c = true)
    (hb : ∀ c ∈ b, isWordChar c = true) (hr : Ends r) (hs : Ends s) (h : a ++ r = b ++ s) :
    a = b ∧ r = s := by
  induction a generalizing b with
  | nil =>
      cases b with
      | nil => exact ⟨rfl, h⟩
      | cons d b =>
          rw [List.nil_append, List.cons_append] at h
          rw [h] at hr
          exact nomatch hr.not_isWordChar.symm.trans (hb d List.mem_cons_self)
  | cons c a ih =>
      cases b with
      | nil =>
          rw [List.nil_append, List.cons_append] at h
          rw [← h] at hs
          exact nomatch hs.not_isWordChar.symm.trans (ha c List.mem_cons_self)
      | cons d b =>
          obtain ⟨rfl, hrest⟩ := List.cons.inj h
          obtain ⟨rfl, hrs⟩ := ih (List.forall_mem_cons.mp ha).2 (List.forall_mem_cons.mp hb).2
            hrest
          exact ⟨rfl, hrs⟩

/-! ## What a text opens with -/

/-- The mark that the text of a value opens with, unless it is a word. -/
def lead? : Json → Option Char
  | .string _ => some '"'
  | .array _ => some '['
  | .object _ => some '{'
  | _ => none

/-- The mark that a text opens with, if it opens with one. -/
def leadOf? : List Char → Option Char
  | [] => none
  | c :: _ => if c = '"' ∨ c = '[' ∨ c = '{' then some c else none

theorem leadOf?_of_isWordChar {c : Char} {r : List Char} (h : isWordChar c = true) :
    leadOf? (c :: r) = none := by
  refine if_neg ?_
  rintro (rfl | rfl | rfl) <;> cases h

theorem leadOf?_of_ends {r : List Char} (h : Ends r) : leadOf? r = none := by
  cases r with
  | nil => rfl
  | cons c r =>
      refine if_neg ?_
      rcases h c rfl with rfl | rfl <;> decide

/-- Every value is a word or opens with a mark. -/
theorem word?_isSome_iff {v : Json} : v.word?.isSome ↔ v.lead? = none := by
  cases v with
  | bool b => cases b <;> decide
  | null | whole | real | string | array | object => simp [word?, name?, number?, lead?]

theorem indentedText_of_word? {v : Json} {text : List Char} (h : v.word? = some text)
    (level : Nat) : indentedText level v = text := by
  cases v with
  | bool b => cases b <;> exact Option.some.inj h
  | null | whole | real => exact Option.some.inj h
  | string | array | object => cases h

theorem bracketed_eq (opening closing : Char) (level : Nat) (texts : List (List Char)) :
    ∃ rest, bracketed opening closing level texts = opening :: rest := by
  cases texts <;> exact ⟨_, rfl⟩

theorem leadOf?_indentedText (v : Json) (level : Nat) {r : List Char} (hr : Ends r) :
    leadOf? (indentedText level v ++ r) = v.lead? := by
  cases hword : v.word? with
  | some text =>
      rw [indentedText_of_word? hword, word?_isSome_iff.mp (hword ▸ rfl)]
      cases text with
      | nil => exact leadOf?_of_ends hr
      | cons c cs => exact leadOf?_of_isWordChar (isWordChar_of_word? hword c List.mem_cons_self)
  | none =>
      cases v with
      | string => rfl
      | array items =>
          obtain ⟨rest, hrest⟩ := bracketed_eq '[' ']' level (indentedItems (level + 1) items)
          rw [indentedText, hrest]
          rfl
      | object members =>
          obtain ⟨rest, hrest⟩ := bracketed_eq '{' '}' level (indentedMembers (level + 1) members)
          rw [indentedText, hrest]
          rfl
      | bool b => cases b <;> cases hword
      | null | whole | real => cases hword

theorem lead?_eq {v w : Json} {level : Nat} {r s : List Char} (hr : Ends r) (hs : Ends s)
    (h : indentedText level v ++ r = indentedText level w ++ s) : v.lead? = w.lead? := by
  rw [← leadOf?_indentedText v level hr, h, leadOf?_indentedText w level hs]

/-! ## Rows -/

/-- Something is told by its text, wherever the text stops. -/
def Told {α : Type} (text : α → List Char) (x : α) : Prop :=
  ∀ ⦃y r s⦄, Ends r → Ends s → text x ++ r = text y ++ s → x = y ∧ r = s

/-- The rows behind the first one, each behind a comma and on a line of its own. -/
def furtherRows (level : Nat) (rows : List (List Char)) : List Char :=
  rows.flatMap fun row => ',' :: (newline level ++ row)

theorem furtherRows_cons_append (level : Nat) (row : List Char) (rows : List (List Char))
    (r : List Char) : furtherRows level (row :: rows) ++ r =
      ',' :: (newline level ++ (row ++ (furtherRows level rows ++ r))) := by
  simp [furtherRows]

/-- What stands behind a row ends it. -/
theorem ends_furtherRows (level : Nat) (rows : List (List Char)) (r : List Char) :
    Ends (furtherRows level rows ++ '\n' :: r) := by
  intro c hc
  cases rows with
  | nil => exact .inr (Option.some.inj hc).symm
  | cons row rows => exact .inl (Option.some.inj hc).symm

theorem separated_cons (separator row : List Char) (rows : List (List Char)) :
    separated separator (row :: rows) = row ++ rows.flatMap (separator ++ ·) := by
  induction rows generalizing row with
  | nil => simp [separated]
  | cons next rows ih => rw [separated, ih, List.flatMap_cons, List.append_assoc, List.append_assoc]

/-- Brackets with rows between them, and what follows the brackets. -/
theorem bracketed_cons_append (opening closing : Char) (level : Nat) (row : List Char)
    (rows : List (List Char)) (r : List Char) :
    bracketed opening closing level (row :: rows) ++ r =
      opening :: (newline (level + 1) ++ (row ++ (furtherRows (level + 1) rows ++
        '\n' :: (List.replicate (2 * level) ' ' ++ closing :: r)))) := by
  rw [bracketed, separated_cons]
  simp [furtherRows, newline]

/-- An empty container is told from one with rows. -/
theorem bracketed_nil_ne_cons {opening closing : Char} {level : Nat} {row : List Char}
    {rows : List (List Char)} {r s : List Char} (h : closing ≠ '\n') :
    bracketed opening closing level [] ++ r ≠
      bracketed opening closing level (row :: rows) ++ s := by
  intro heq
  rw [bracketed_cons_append] at heq
  exact h (List.cons.inj (List.cons.inj heq).2).1

section
variable {α : Type} {text : α → List Char} {xs ys : List α} {level : Nat} {r s : List Char}

theorem furtherRows_append_inj (h : ∀ x ∈ xs, Told text x)
    (heq : furtherRows level (xs.map text) ++ '\n' :: r =
      furtherRows level (ys.map text) ++ '\n' :: s) : xs = ys ∧ r = s := by
  induction xs generalizing ys with
  | nil =>
      cases ys with
      | nil => exact ⟨rfl, (List.cons.inj heq).2⟩
      | cons y ys => exact nomatch (List.cons.inj heq).1
  | cons x xs ih =>
      cases ys with
      | nil => exact nomatch (List.cons.inj heq).1
      | cons y ys =>
          rw [List.map_cons, List.map_cons, furtherRows_cons_append, furtherRows_cons_append] at heq
          have hrow := List.append_cancel_left (List.cons.inj heq).2
          obtain ⟨hx, hxs⟩ := List.forall_mem_cons.mp h
          obtain ⟨rfl, hrest⟩ := hx (ends_furtherRows _ _ _) (ends_furtherRows _ _ _) hrow
          obtain ⟨rfl, hrs⟩ := ih hxs hrest
          exact ⟨rfl, hrs⟩

/-- Rows between brackets are told if each of them is. -/
theorem bracketed_append_inj {opening closing : Char} (hclosing : closing ≠ '\n')
    (h : ∀ x ∈ xs, Told text x)
    (heq : bracketed opening closing level (xs.map text) ++ r =
      bracketed opening closing level (ys.map text) ++ s) : xs = ys ∧ r = s := by
  cases xs with
  | nil =>
      cases ys with
      | nil => exact ⟨rfl, (List.cons.inj (List.cons.inj heq).2).2⟩
      | cons y ys => exact absurd heq (bracketed_nil_ne_cons hclosing)
  | cons x xs =>
      cases ys with
      | nil => exact absurd heq.symm (bracketed_nil_ne_cons hclosing)
      | cons y ys =>
          rw [List.map_cons, List.map_cons, bracketed_cons_append, bracketed_cons_append] at heq
          have hrow := List.append_cancel_left (List.cons.inj heq).2
          obtain ⟨hx, hxs⟩ := List.forall_mem_cons.mp h
          obtain ⟨rfl, hrest⟩ := hx (ends_furtherRows _ _ _) (ends_furtherRows _ _ _) hrow
          obtain ⟨rfl, hclose⟩ := furtherRows_append_inj hxs hrest
          exact ⟨rfl, (List.cons.inj (List.append_cancel_left hclose)).2⟩

end

/-! ## Values -/

/-- The text of a member. -/
def memberText (level : Nat) (m : String × Json) : List Char :=
  quoted m.1 ++ ':' :: ' ' :: indentedText level m.2

theorem indentedItems_eq_map (level : Nat) (vs : List Json) :
    indentedItems level vs = vs.map (indentedText level) := by
  induction vs with
  | nil => rfl
  | cons v vs ih => rw [indentedItems, ih, List.map_cons]

theorem indentedMembers_eq_map (level : Nat) (ms : List (String × Json)) :
    indentedMembers level ms = ms.map (memberText level) := by
  induction ms with
  | nil => rfl
  | cons m ms ih => rw [indentedMembers, ih, List.map_cons]; rfl

/-- A member is told if its value is. -/
theorem told_memberText {level : Nat} {m : String × Json} (h : Told (indentedText level) m.2) :
    Told (memberText level) m := by
  rintro ⟨key, value⟩ r s hr hs heq
  rw [memberText, memberText, List.append_assoc, List.append_assoc] at heq
  obtain ⟨hkey, hrest⟩ := quoted_append_inj heq
  obtain ⟨hvalue, hrs⟩ := h hr hs (List.cons.inj (List.cons.inj hrest).2).2
  exact ⟨Prod.ext hkey hvalue, hrs⟩

/-- A word is told by its text. -/
theorem told_of_word? {v : Json} {text : List Char} (hv : v.word? = some text) (level : Nat) :
    Told (indentedText level) v := by
  intro w r s hr hs h
  have hlead : w.lead? = none := (lead?_eq hr hs h).symm.trans (word?_isSome_iff.mp (hv ▸ rfl))
  obtain ⟨other, hw⟩ := Option.isSome_iff_exists.mp (word?_isSome_iff.mpr hlead)
  rw [indentedText_of_word? hv, indentedText_of_word? hw] at h
  obtain ⟨rfl, hrs⟩ := word_append_inj (isWordChar_of_word? hv) (isWordChar_of_word? hw) hr hs h
  exact ⟨word?_inj hv hw, hrs⟩

mutual
/-- A value is told by its text. -/
theorem told_indentedText : (v : Json) → (level : Nat) → Told (indentedText level) v
  | .null, level => told_of_word? rfl level
  | .bool true, level => told_of_word? rfl level
  | .bool false, level => told_of_word? rfl level
  | .whole _, level => told_of_word? rfl level
  | .real _ _, level => told_of_word? rfl level
  | .string a, level => by
      intro w r s hr hs h
      -- Equal texts open with one mark, which leaves only values of the same kind.
      have hlead := lead?_eq hr hs h
      cases w with
      | string b =>
          obtain ⟨rfl, hrs⟩ := quoted_append_inj h
          exact ⟨rfl, hrs⟩
      | null | bool | whole | real | array | object => simp [lead?] at hlead
  | .array vs, level => by
      intro w r s hr hs h
      have hlead := lead?_eq hr hs h
      cases w with
      | array ws =>
          rw [indentedText, indentedText, indentedItems_eq_map, indentedItems_eq_map] at h
          obtain ⟨rfl, hrs⟩ := bracketed_append_inj (by decide) (told_items vs (level + 1)) h
          exact ⟨rfl, hrs⟩
      | null | bool | whole | real | string | object => simp [lead?] at hlead
  | .object ms, level => by
      intro w r s hr hs h
      have hlead := lead?_eq hr hs h
      cases w with
      | object ns =>
          rw [indentedText, indentedText, indentedMembers_eq_map, indentedMembers_eq_map] at h
          obtain ⟨rfl, hrs⟩ := bracketed_append_inj (by decide) (told_members ms (level + 1)) h
          exact ⟨rfl, hrs⟩
      | null | bool | whole | real | string | array => simp [lead?] at hlead
theorem told_items : (vs : List Json) → (level : Nat) → ∀ v ∈ vs, Told (indentedText level) v
  | [], _ => List.forall_mem_nil _
  | v :: vs, level =>
      List.forall_mem_cons.mpr ⟨told_indentedText v level, told_items vs level⟩
theorem told_members : (ms : List (String × Json)) → (level : Nat) →
    ∀ m ∈ ms, Told (memberText level) m
  | [], _ => List.forall_mem_nil _
  | (key, v) :: ms, level =>
      List.forall_mem_cons.mpr
        ⟨told_memberText (m := (key, v)) (told_indentedText v level), told_members ms level⟩
end

/-- Values with the same indented text are the same. -/
theorem indented_inj {v w : Json} (h : v.indented = w.indented) : v = w := by
  have htexts : indentedText 0 v ++ [] = indentedText 0 w ++ [] :=
    congrArg (· ++ []) (String.ofList_injective h)
  exact (told_indentedText v 0 ends_nil ends_nil htexts).1

end Bracework.Json
