/-
Texts — lengths in UTF-8 bytes and small operations on lists of characters.

Offsets into a source count bytes of its UTF-8 form; the texts themselves are
lists of characters, so an offset can only fall between two characters.
-/
namespace Bracework

/-- The number of bytes of a text in UTF-8. -/
def utf8Length : List Char → Nat
  | [] => 0
  | c :: cs => c.utf8Size + utf8Length cs

@[simp] theorem utf8Length_append (as bs : List Char) :
    utf8Length (as ++ bs) = utf8Length as + utf8Length bs := by
  induction as with
  | nil => simp [utf8Length]
  | cons c cs ih => simp [utf8Length, ih, Nat.add_assoc]

/-- Texts with a separator between any two of them. -/
def separated (separator : List Char) : List (List Char) → List Char
  | [] => []
  | [t] => t
  | t :: u :: ts => t ++ separator ++ separated separator (u :: ts)

/-- A text cut at every occurrence of a character, which itself is dropped. -/
def cutAt (mark : Char) : List Char → List (List Char)
  | [] => [[]]
  | c :: cs =>
      if c = mark then [] :: cutAt mark cs
      else match cutAt mark cs with
        | [] => [[c]]
        | piece :: pieces => (c :: piece) :: pieces

/-- The text before the first occurrence of a pattern, and the text after it. -/
def splitAtFirst? (pattern : List Char) : List Char → Option (List Char × List Char)
  | [] => if pattern = [] then some ([], []) else none
  | c :: cs =>
      if pattern.isPrefixOf (c :: cs) then some ([], (c :: cs).drop pattern.length)
      else (splitAtFirst? pattern cs).map fun (before, after) => (c :: before, after)

/-- What is found before and after a pattern makes up the text again. -/
theorem append_of_splitAtFirst? {pattern text before after : List Char}
    (h : splitAtFirst? pattern text = some (before, after)) :
    text = before ++ pattern ++ after := by
  induction text generalizing before with
  | nil =>
    simp only [splitAtFirst?] at h
    split at h
    · rename_i hp
      simp only [Option.some.injEq, Prod.mk.injEq] at h
      simp [hp, ← h.1, ← h.2]
    · simp at h
  | cons c cs ih =>
    simp only [splitAtFirst?] at h
    split at h
    · rename_i hp
      simp only [Option.some.injEq, Prod.mk.injEq] at h
      obtain ⟨rest, hrest⟩ := List.isPrefixOf_iff_prefix.mp hp
      rw [← h.1, ← h.2, ← hrest]
      simp
    · simp only [Option.map_eq_some_iff, Prod.exists, Prod.mk.injEq] at h
      obtain ⟨b, a, hba, rfl, rfl⟩ := h
      rw [ih hba]
      simp

end Bracework
