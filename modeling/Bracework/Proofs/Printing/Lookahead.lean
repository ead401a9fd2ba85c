/-
Printing — what stands at the head of a printed text.

The reader decides by looking ahead: a run of characters goes on while they
are of a class, a delimiter is searched for, a mark is tested at the head.  Each
of these stops where the printer stopped, if what follows does not begin with
the wrong character.  This module has the facts about characters and places
that say so; which character may follow is said where the pieces are put
together.
-/
import Bracework.Proofs.Printing.Printable
import Bracework.Proofs.Reading.Derivation

namespace Bracework

/-! ## Classes of characters -/

namespace CharClass

/-- No blank is in either of the two large classes. -/
theorem blanks_disjoint : spaceRanges.all (fun r => (List.range' r.1 (r.2 + 1 - r.1)).all fun n =>
    !inRanges alphabeticRanges n && !inRanges numericRanges n) = true := by
  decide +kernel

theorem isAlphanumeric_of_isSpace {c : Char} (h : isSpace c = true) :
    isAlphanumeric c = false := by
  have ho : Ordered 0 spaceRanges := by simp [Ordered, spaceRanges]
  obtain ⟨r, hr, hlow, hhigh⟩ := (inRanges_iff ho).mp h
  have hall := List.all_eq_true.mp blanks_disjoint r hr
  have hc := List.all_eq_true.mp hall c.toNat (by rw [List.mem_range'_1]; omega)
  simp only [Bool.and_eq_true, Bool.not_eq_true'] at hc
  rw [isAlphanumeric, isAlphabetic, isNumeric, hc.1, hc.2, Bool.or_false]

@[simp] theorem isSpace_blank : isSpace ' ' = true := by decide

@[simp] theorem isSpace_brace : isSpace '}' = false := by decide

@[simp] theorem isSpace_paren : isSpace ')' = false := by decide

@[simp] theorem isSpace_angle : isSpace '>' = false := by decide

end CharClass

namespace Token

theorem isAlpha_iff_toNat {c : Char} : c.isAlpha = true ↔
    65 ≤ c.toNat ∧ c.toNat ≤ 90 ∨ 97 ≤ c.toNat ∧ c.toNat ≤ 122 := by
  have hletter : c.isAlpha = (decide ('A' ≤ c ∧ c ≤ 'Z') || decide ('a' ≤ c) && decide (c ≤ 'z')) :=
    rfl
  simp only [hletter, Bool.or_eq_true, Bool.and_eq_true, decide_eq_true_iff]
  rfl

theorem isNameChar_of_isDigit {c : Char} (h : c.isDigit = true) : isNameChar c = true := by
  have hc := Char.isDigit_iff_toNat.mp h
  have hn : CharClass.isNumeric c = true := by
    have h1 : '0'.toNat = 48 := rfl
    have h2 : '9'.toNat = 57 := rfl
    rw [CharClass.isNumeric, CharClass.numericRanges, CharClass.inRanges, if_neg (by omega),
      if_pos (by omega)]
  simp [isNameChar, CharClass.isAlphanumeric, hn]

theorem isPathChar_of_isNameChar {c : Char} (h : isNameChar c = true) : isPathChar c = true := by
  rw [isPathChar, h, Bool.true_or, Bool.true_or]

theorem isSpace_of_isPathChar {c : Char} (h : isPathChar c = true) :
    CharClass.isSpace c = false := by
  cases hs : CharClass.isSpace c with
  | false => rfl
  | true =>
      have hc := CharClass.isAlphanumeric_of_isSpace hs
      simp only [isPathChar, isNameChar, hc, Bool.false_or, Bool.or_eq_true, beq_iff_eq] at h
      rcases h with (((rfl | rfl) | rfl) | rfl) | rfl <;> exact absurd hs (by decide)

/-- A character of a class is none that is not. -/
theorem ne_of_class {test : Char → Bool} {c x : Char} (h : test c = true) (hx : test x = false) :
    c ≠ x := by
  rintro rfl
  rw [h] at hx
  cases hx

end Token

/-! ## Runs of characters -/

/-- A text that does not begin with a character of a class. -/
def Ends (test : Char → Bool) (r : List Char) : Prop := ∀ x ∈ r.head?, test x = false

@[simp] theorem ends_cons {test : Char → Bool} {x : Char} {r : List Char} :
    Ends test (x :: r) ↔ test x = false := by
  simp [Ends]

theorem takeWhile_append_of_ends {test : Char → Bool} {s r : List Char}
    (hs : ∀ x ∈ s, test x = true) (hr : Ends test r) : (s ++ r).takeWhile test = s := by
  rw [List.takeWhile_append_of_pos hs]
  cases r with
  | nil => exact List.append_nil s
  | cons x r => rw [List.takeWhile_cons, if_neg (by simp [ends_cons.mp hr]), List.append_nil]

theorem dropWhile_append_of_ends {test : Char → Bool} {s r : List Char}
    (hs : ∀ x ∈ s, test x = true) (hr : Ends test r) : (s ++ r).dropWhile test = r := by
  rw [List.dropWhile_append_of_pos hs]
  cases r with
  | nil => rfl
  | cons x r => rw [List.dropWhile_cons, if_neg (by simp [ends_cons.mp hr])]

theorem dropWhile_of_ends {test : Char → Bool} {r : List Char} (h : Ends test r) :
    r.dropWhile test = r :=
  dropWhile_append_of_ends (s := []) (by simp) h

theorem drop_length_takeWhile (test : Char → Bool) (cs : List Char) :
    cs.drop (cs.takeWhile test).length = cs.dropWhile test := by
  induction cs with
  | nil => rfl
  | cons x cs ih =>
      rw [List.takeWhile_cons, List.dropWhile_cons]
      split
      · rw [List.length_cons, List.drop_succ_cons, ih]
      · rfl

/-- A word of a class at the head of a text lies in the run of that class. -/
theorem prefix_of_ends {test : Char → Bool} : {word run r : List Char} →
    (∀ x ∈ word, test x = true) → Ends test r → word <+: run ++ r → word <+: run
  | [], _, _, _, _, _ => List.nil_prefix
  | x :: word, [], r, hw, hr, h => by
      obtain ⟨after, ha⟩ := h
      have hx : x ∈ r.head? := by
        rw [← List.nil_append r, ← ha]
        rfl
      have htest := hw x (.head _)
      rw [hr x hx] at htest
      cases htest
  | x :: word, y :: run, r, hw, hr, h => by
      rw [List.cons_append, List.cons_prefix_cons] at h
      rw [List.cons_prefix_cons]
      exact ⟨h.1, prefix_of_ends (fun z hz => hw z (.tail _ hz)) hr h.2⟩

namespace Cursor

theorem rest_advance {c : Cursor} {s r : List Char} (h : c.rest = s ++ r) :
    (c.advance s.length).rest = r := by
  rw [advance, h, List.drop_left]

theorem startsWith_of_rest {c : Cursor} {s r : List Char} (h : c.rest = s ++ r) :
    c.startsWith s = true := by
  rw [startsWith, h]
  exact List.isPrefixOf_iff_prefix.mpr (List.prefix_append s r)

theorem taken_of_rest {c : Cursor} {test : Char → Bool} {s r : List Char} (h : c.rest = s ++ r)
    (hs : ∀ x ∈ s, test x = true) (hr : Ends test r) : c.taken test = s := by
  rw [taken, h, takeWhile_append_of_ends hs hr]

theorem rest_skip {c : Cursor} {test : Char → Bool} {s r : List Char} (h : c.rest = s ++ r)
    (hs : ∀ x ∈ s, test x = true) (hr : Ends test r) : (c.skip test).rest = r := by
  rw [skip, h, dropWhile_append_of_ends hs hr]

theorem skipSpace_of_ends {c : Cursor} (h : Ends CharClass.isSpace c.rest) : c.skipSpace = c := by
  obtain ⟨rest, offset⟩ := c
  have h1 := takeWhile_append_of_ends (s := []) (by simp) h
  have h2 := dropWhile_append_of_ends (s := []) (by simp) h
  simp only [List.nil_append] at h1 h2
  rw [skipSpace, skip, h1, h2, utf8Length, Nat.add_zero]

theorem rest_skipSpace {c : Cursor} {r : List Char} (h : c.rest = r)
    (hr : Ends CharClass.isSpace r) : c.skipSpace.rest = r := by
  rw [skipSpace_of_ends (h ▸ hr), h]

theorem rest_skipSpace_of_blank {c : Cursor} {r : List Char} (h : c.rest = ' ' :: r)
    (hr : Ends CharClass.isSpace r) : c.skipSpace.rest = r :=
  rest_skip (s := [' ']) h (by simp) hr

/-- A delimiter does not stand where another character does. -/
theorem not_startsWith_of_head {c : Cursor} {x y : Char} {xs mark : List Char}
    (h : c.rest = x :: xs) (hne : x ≠ y) : c.startsWith (y :: mark) = false := by
  simp [startsWith, h, List.isPrefixOf, hne.symm]

end Cursor

/-! ## Delimiters that are searched for -/

namespace Token

theorem somewhere_eq_false_iff {ahead : List Char → Bool} {text : List Char} :
    somewhere ahead text = false ↔ ∀ s, s ≠ [] → s <:+ text → ahead s = false := by
  induction text with
  | nil => exact ⟨fun _ s hs hsuf => absurd (List.suffix_nil.mp hsuf) hs, fun _ => rfl⟩
  | cons x xs ih =>
      rw [somewhere, Bool.or_eq_false_iff, ih]
      constructor
      · rintro ⟨hx, hxs⟩ s hs hsuf
        rcases List.suffix_cons_iff.mp hsuf with rfl | hsuf
        · exact hx
        · exact hxs s hs hsuf
      · intro h
        exact ⟨h _ (by simp) (List.suffix_refl _),
          fun s hs hsuf => h s hs (hsuf.trans (List.suffix_cons x xs))⟩

/-- A mark that is in neither half of a text goes over the seam. -/
theorem seam_of_isPrefixOf {mark text r : List Char}
    (h : mark.isPrefixOf (text ++ r) = true) (hn : mark.isPrefixOf text = false) :
    ∃ c rest, mark = text ++ c :: rest ∧ r.head? = some c := by
  have hprefix := List.isPrefixOf_iff_prefix.mp h
  have hnot : ¬ mark <+: text := fun hp => by
    rw [List.isPrefixOf_iff_prefix.mpr hp] at hn
    cases hn
  rcases List.prefix_or_prefix_of_prefix hprefix (List.prefix_append text r) with hp | hp
  · exact absurd hp hnot
  · obtain ⟨rest, rfl⟩ := hp
    cases rest with
    | nil =>
        rw [List.append_nil] at hnot
        exact absurd List.prefix_rfl hnot
    | cons c rest =>
        obtain ⟨after, rfl⟩ := (List.prefix_append_right_inj text).mp hprefix
        exact ⟨c, rest, rfl, rfl⟩

theorem mustacheOpen_append {text r : List Char} (hne : text ≠ [])
    (h : mustacheOpen.isPrefixOf text = false)
    (hb : endsWithBrace text = true → r.head? ≠ some '{') :
    mustacheOpen.isPrefixOf (text ++ r) = false := by
  refine Bool.eq_false_iff.mpr fun hp => ?_
  obtain ⟨c, rest, hmark, hc⟩ := seam_of_isPrefixOf hp h
  cases text with
  | nil => exact hne rfl
  | cons x text =>
      obtain ⟨rfl, htail⟩ := List.cons.inj hmark
      cases text with
      | nil =>
          obtain ⟨rfl, -⟩ := List.cons.inj htail
          exact hb rfl hc
      | cons y text => simp at htail

/-- A mark that does not begin in a text and end in the mark behind it. -/
def Unbordered (mark : List Char) : Prop :=
  ∀ s after : List Char, s ≠ [] → mark.isPrefixOf s = false →
    mark.isPrefixOf (s ++ (mark ++ after)) = false

theorem unbordered_singleton (x : Char) : Unbordered [x] := by
  intro s after hs h
  cases s with
  | nil => exact absurd rfl hs
  | cons y s => simpa [List.isPrefixOf] using h

theorem unbordered_commentClose : Unbordered commentClose := by
  intro s after hs h
  rcases s with _ | ⟨x, _ | ⟨y, _ | ⟨z, s⟩⟩⟩
  · exact absurd rfl hs
  · simp [commentClose, List.isPrefixOf]
  · simp [commentClose, List.isPrefixOf]
  · simpa [commentClose, List.isPrefixOf] using h

theorem unbordered_longRemarkClose : Unbordered longRemarkClose := by
  intro s after hs h
  rcases s with _ | ⟨x, _ | ⟨y, _ | ⟨z, _ | ⟨w, s⟩⟩⟩⟩
  · exact absurd rfl hs
  · simp [longRemarkClose, List.isPrefixOf]
  · simp [longRemarkClose, List.isPrefixOf]
  · simp [longRemarkClose, List.isPrefixOf]
  · simpa [longRemarkClose, List.isPrefixOf] using h

end Token

/-- The delimiter behind a text that does not hold it is the one that is found. -/
theorem splitAtFirst?_append {mark before : List Char} (after : List Char) (hne : mark ≠ [])
    (hu : Token.Unbordered mark) (h : Token.occursIn mark before = false) :
    splitAtFirst? mark (before ++ (mark ++ after)) = some (before, after) := by
  induction before with
  | nil =>
      obtain ⟨x, xs, rfl⟩ := List.exists_cons_of_ne_nil hne
      have hp : (x :: xs).isPrefixOf (x :: (xs ++ after)) = true :=
        List.isPrefixOf_iff_prefix.mpr (List.prefix_append (x :: xs) after)
      rw [List.nil_append, List.cons_append, splitAtFirst?, if_pos hp, ← List.cons_append,
        List.drop_left]
  | cons x xs ih =>
      rw [Token.occursIn, Token.somewhere, Bool.or_eq_false_iff] at h
      have hp := hu (x :: xs) after (by simp) h.1
      rw [List.cons_append] at hp
      rw [List.cons_append, splitAtFirst?, if_neg (by simp [hp]), ih h.2]
      rfl

end Bracework
