/-
Reading — what a scan leaves behind.

The text of a statement and the text of a quoted value are scanned in the same
way: up to the first place where a test of what lies ahead holds.  So the test
holds nowhere in such a text, not even where it runs into what follows it; and a
comment or a string does not hold the delimiter that it was read up to.
-/
import Bracework.Proofs.Printing.Item

namespace Bracework

open Reading

namespace Token

/-! ## Scanning up to a mark -/

/-- The text before the first place where a test of what lies ahead holds. -/
def upTo (ahead : List Char → Bool) : List Char → List Char
  | [] => []
  | c :: cs => if ahead (c :: cs) then [] else c :: upTo ahead cs

/-- A test of what lies ahead holds behind a text, unless nothing is there, and at no character
of it. -/
structure Stops (ahead : List Char → Bool) (text rest : List Char) : Prop where
  behind : rest = [] ∨ ahead rest = true
  before : ∀ s, s ≠ [] → s <:+ text → ahead (s ++ rest) = false

theorem stops_upTo (ahead : List Char → Bool) (cs : List Char) :
    ∃ rest, cs = upTo ahead cs ++ rest ∧ Stops ahead (upTo ahead cs) rest := by
  induction cs with
  | nil => exact ⟨[], rfl, .inl rfl, fun s hs hsuf => absurd (List.suffix_nil.mp hsuf) hs⟩
  | cons c cs ih =>
      rw [upTo]
      split
      case isTrue h =>
        exact ⟨c :: cs, rfl, .inr h, fun s hs hsuf => absurd (List.suffix_nil.mp hsuf) hs⟩
      case isFalse h =>
        obtain ⟨rest, heq, hstops⟩ := ih
        refine ⟨rest, congrArg (c :: ·) heq, hstops.behind, fun s hs hsuf => ?_⟩
        rcases List.suffix_cons_iff.mp hsuf with rfl | hsuf
        · rw [List.cons_append, ← heq]
          exact Bool.eq_false_iff.mpr h
        · exact hstops.before s hs hsuf

/-- A test that does not look past what makes it hold. -/
def Persists (ahead : List Char → Bool) : Prop :=
  ∀ s r, ahead s = true → ahead (s ++ r) = true

theorem Stops.somewhere_eq_false {ahead mark : List Char → Bool} {text rest : List Char}
    (h : Stops ahead text rest) (hp : Persists mark) (hm : ∀ s, mark s = true → ahead s = true) :
    somewhere mark text = false := by
  rw [somewhere_eq_false_iff]
  intro s hs hsuf
  refine Bool.eq_false_iff.mpr fun hmark => ?_
  have hahead := hm _ (hp s rest hmark)
  rw [h.before s hs hsuf] at hahead
  cases hahead

/-- A brace at the end of a scanned text does not run into another one. -/
theorem Stops.brace_head {ahead : List Char → Bool} {text rest : List Char}
    (h : Stops ahead text rest) (hm : ∀ s, mustacheOpen.isPrefixOf s = true → ahead s = true)
    (hb : endsWithBrace text = true) : rest.head? ≠ some '{' := by
  intro hhead
  obtain ⟨before, htext⟩ := List.getLast?_eq_some_iff.mp (endsWithBrace_iff.mp hb)
  obtain ⟨after, rfl⟩ := List.head?_eq_some_iff.mp hhead
  have hahead := hm ('{' :: '{' :: after) (by simp [mustacheOpen])
  have hfalse := h.before ['{'] (by simp) ⟨before, htext.symm⟩
  rw [List.singleton_append, hahead] at hfalse
  cases hfalse

theorem persists_isPrefixOf (mark : List Char) : Persists mark.isPrefixOf := fun s r h =>
  List.isPrefixOf_iff_prefix.mpr
    ((List.isPrefixOf_iff_prefix.mp h).trans (List.prefix_append s r))

theorem persists_startsTag : Persists startsTag
  | [_], _, h => absurd h (by simp [startsTag])
  | x :: y :: s, r, h => by
      rw [startsTag_cons] at h
      exact (startsTag_cons x y (s ++ r)).trans h

theorem persists_startsMark : Persists startsMark := by
  intro s r h
  simp only [startsMark, Bool.or_eq_true] at h ⊢
  exact h.imp (Or.imp (persists_isPrefixOf _ s r) (persists_startsTag s r))
    (persists_isPrefixOf _ s r)

theorem startsMark_of_mustacheOpen {s : List Char} (h : mustacheOpen.isPrefixOf s = true) :
    startsMark s = true := by
  rw [startsMark, h]
  rfl

/-! ## The text of a statement -/

theorem textTail_eq (cs : List Char) : textTail cs = upTo startsMark cs := by
  induction cs with
  | nil => rfl
  | cons c cs ih =>
      rw [textTail, upTo, ih]
      rfl

/-! ## The text of a quoted value -/

/-- What ends a run of text between two quotes. -/
def endsPart (quote : Char) (cs : List Char) : Bool :=
  cs.head? == some quote || mustacheOpen.isPrefixOf cs

theorem partText_eq (quote : Char) (cs : List Char) :
    partText quote cs = upTo (endsPart quote) cs := by
  induction cs with
  | nil => rfl
  | cons c cs ih =>
      rw [partText, upTo, ih]
      simp [endsPart]

theorem endsPart_of_mustacheOpen (quote : Char) {s : List Char}
    (h : mustacheOpen.isPrefixOf s = true) : endsPart quote s = true := by
  rw [endsPart, h, Bool.or_true]

end Token

/-! ## Marks -/

/-- What a mark says about the text that it is the mark of. -/
def Mark.fits : Mark → List Char → Bool
  | .closingTag, rest => Token.closingTagOpen.isPrefixOf rest
  | .closingBlock, rest => Token.blockClose.isPrefixOf rest
  | .elseMark, rest => Token.startsElse rest
  | .longRemark, rest => Token.longRemarkOpen.isPrefixOf rest
  | .remark, rest => Token.remarkOpen.isPrefixOf rest
  | .openingBlock, rest => Token.blockOpen.isPrefixOf rest
  | .mustache, rest => Token.mustacheOpen.isPrefixOf rest
  | .comment, rest => Token.commentOpen.isPrefixOf rest
  | .openingTag, rest => Token.startsTag rest && !Token.closingTagOpen.isPrefixOf rest
  | .text, rest => !Token.startsMark rest

theorem Mark.fits_of (rest : List Char) : (Mark.of rest).fits rest = true := by
  unfold Mark.of
  repeat' split
  all_goals simp_all [fits, Token.startsMark, -List.isPrefixOf_iff_prefix]

theorem Mark.fits_of_eq {rest : List Char} {m : Mark} (h : Mark.of rest = m) :
    m.fits rest = true :=
  h ▸ fits_of rest

/-- Whether a mark begins with a brace. -/
def Mark.isCurly : Mark → Bool
  | .closingTag => false
  | .comment => false
  | .openingTag => false
  | .text => false
  | _ => true

theorem Mark.head_of_isCurly {rest : List Char} {m : Mark} (h : Mark.of rest = m)
    (hc : m.isCurly = true) : rest.head? = some '{' := by
  have hfits := fits_of_eq h
  obtain ⟨mark, hmark⟩ : ∃ mark, ('{' :: mark).isPrefixOf rest = true := by
    cases m
    case closingTag | comment | openingTag | text => cases hc
    case elseMark => exact ⟨_, (Bool.and_eq_true_iff.mp hfits).1⟩
    all_goals exact ⟨_, hfits⟩
  obtain ⟨after, rfl⟩ := List.isPrefixOf_iff_prefix.mp hmark
  rfl

/-! ## Delimiters that are searched for -/

/-- Where a delimiter does not occur, no longer one occurs that ends with it. -/
theorem Token.occursIn_append_mark {mark text : List Char} (before : List Char) (hne : mark ≠ [])
    (h : occursIn mark text = false) : occursIn (before ++ mark) text = false := by
  rw [occursIn, somewhere_eq_false_iff] at h ⊢
  intro s _ hsuf
  refine Bool.eq_false_iff.mpr fun hp => ?_
  obtain ⟨after, rfl⟩ := List.isPrefixOf_iff_prefix.mp hp
  rw [List.append_assoc] at hsuf
  have hmark := h (mark ++ after) (by simp [hne]) ((List.suffix_append before _).trans hsuf)
  rw [List.isPrefixOf_iff_prefix.mpr (List.prefix_append mark after)] at hmark
  cases hmark

/-- A text that ends at the first occurrence of a delimiter does not hold it. -/
theorem occursIn_of_splitAtFirst? {mark text before after : List Char}
    (h : splitAtFirst? mark text = some (before, after)) : Token.occursIn mark before = false := by
  induction text generalizing before with
  | nil =>
      rw [splitAtFirst?] at h
      split at h
      · obtain ⟨rfl, -⟩ := Prod.mk.inj (Option.some.inj h)
        rfl
      · cases h
  | cons c cs ih =>
      have hsplit := append_of_splitAtFirst? h
      rw [splitAtFirst?] at h
      split at h
      case isTrue =>
        obtain ⟨rfl, -⟩ := Prod.mk.inj (Option.some.inj h)
        rfl
      case isFalse hp =>
        obtain ⟨⟨b, a⟩, hba, heq⟩ := Option.map_eq_some_iff.mp h
        obtain ⟨rfl, rfl⟩ := Prod.mk.inj heq
        rw [Token.occursIn, Token.somewhere, Bool.or_eq_false_iff]
        refine ⟨Bool.eq_false_iff.mpr fun hmark => hp ?_, ih hba⟩
        rw [hsplit, List.append_assoc]
        exact Token.persists_isPrefixOf mark _ _ hmark

end Bracework
