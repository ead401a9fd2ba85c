/-
Reading — the bytes that an error marks.

The span of an error runs between two places of the source, so it is in order,
within the source, and falls between characters at both its ends, however many
bytes they take.  An error of a source that ends too early marks the empty span at
its end.  It is raised for one of two reasons: the reader stands at the end, or it
has searched the rest for a delimiter that does not occur there.
-/
import Bracework.Proofs.Reading.Openers

namespace Bracework

open Reading Cursor

/-! ## Searching for a delimiter -/

/-- A search for a pattern fails exactly if the pattern does not occur. -/
theorem splitAtFirst?_eq_none_iff {pattern text : List Char} :
    splitAtFirst? pattern text = none ↔ ¬ pattern <:+: text := by
  induction text with
  | nil =>
      rw [splitAtFirst?, List.infix_nil]
      split
      case isTrue h => exact iff_of_false (Option.some_ne_none _) (not_not_intro h)
      case isFalse h => exact iff_of_true rfl h
  | cons x text ih =>
      rw [splitAtFirst?, List.infix_cons_iff, not_or, ← ih]
      split
      case isTrue h =>
        have hprefix := List.isPrefixOf_iff_prefix.mp h
        exact iff_of_false (Option.some_ne_none _) fun hne => hne.1 hprefix
      case isFalse h =>
        rw [Option.map_eq_none_iff, List.isPrefixOf_iff_prefix] at *
        exact (and_iff_right h).symm

/-- The delimiter that was searched for, if what is missing was searched for. -/
def Missing.delimiter? : Missing → Option (List Char)
  | .token _ => none
  | .commentClose text => some text.toList
  | .attributeQuote _ => none
  | .stringQuote quote => some [quote]
  | .expression => none
  | .described _ => none

/-- The reader at a place has an opening delimiter in front of it and searches what is behind that
for the closing one. -/
inductive Searches : Place → List Char → Cursor → Prop
  | longRemark {c : Cursor} :
      Mark.of c.rest = .longRemark →
      Searches ⟨.item, c⟩ Token.longRemarkClose (c.advance Token.longRemarkOpen.length)
  | remark {c : Cursor} :
      Mark.of c.rest = .remark →
      Searches ⟨.item, c⟩ Token.mustacheClose (c.advance Token.remarkOpen.length)
  | comment {c : Cursor} :
      Mark.of c.rest = .comment →
      Searches ⟨.item, c⟩ Token.commentClose (c.advance Token.commentOpen.length)
  | string {c : Cursor} {quote : Char} {others : List Char} :
      c.rest = quote :: others → quote = '"' ∨ quote = '\'' →
      Searches ⟨.expression, c⟩ [quote] (c.advance 1)

/-- A reader gives up for the end of the source at that end, or where it has searched for a
delimiter that does not occur. -/
theorem Raises.endOfInput {p : Place} {e : ParseError} {missing : Missing} (h : Raises p e)
    (he : e.fault = .endOfInput missing) :
    e.span = ⟨p.cursor.limit, p.cursor.limit⟩ ∧
      (p.cursor.rest = [] ∨ ∃ closing d, Searches p closing d ∧
        missing.delimiter? = some closing ∧ ¬ closing <:+: d.rest) := by
  cases h with
  | unclosedLongRemark hm hs =>
      cases he
      exact ⟨rfl, .inr ⟨_, _, .longRemark hm, rfl, splitAtFirst?_eq_none_iff.mp hs⟩⟩
  | unclosedRemark hm hs =>
      cases he
      exact ⟨rfl, .inr ⟨_, _, .remark hm, rfl, splitAtFirst?_eq_none_iff.mp hs⟩⟩
  | unclosedComment hm hs =>
      cases he
      exact ⟨rfl, .inr ⟨_, _, .comment hm, rfl, splitAtFirst?_eq_none_iff.mp hs⟩⟩
  | unclosedString hr hq hs =>
      cases he
      refine ⟨rfl, .inr ⟨_, _, .string hr hq, rfl, ?_⟩⟩
      rw [advance, hr]
      exact splitAtFirst?_eq_none_iff.mp hs
  | unclosedQuote hr => exact ⟨rfl, .inl hr⟩
  | noExpression hr => exact ⟨rfl, .inl hr⟩
  | endBeforeToken hr => exact ⟨rfl, .inl hr⟩
  | _ => cases he

/-! ## Sources -/

/-- The span of an error is in order, within the source and between characters.  An error of a
source that ends too early marks the end and nothing else; it is raised where the reader stands at
the end, or where it has searched for a delimiter that does not occur in what is left. -/
theorem Template.span_of_parse_error {source filename : String} {e : SourceError}
    (h : Template.parse source filename = .error e) :
    e.error.span.start ≤ e.error.span.stop ∧
    e.error.span.start + e.error.span.length ≤ utf8Length source.toList ∧
    isBoundary source.toList e.error.span.start = true ∧
    isBoundary source.toList (e.error.span.start + e.error.span.length) = true ∧
    ∀ missing, e.error.fault = .endOfInput missing →
      e.error.span.start = utf8Length source.toList ∧ e.error.span.length = 0 ∧
      ∃ p, Visits source.toList p ∧ Raises p e.error ∧
        (p.cursor.rest = [] ∨ ∃ closing d, Searches p closing d ∧
          missing.delimiter? = some closing ∧ ¬ closing <:+: d.rest) := by
  obtain ⟨p, hvisits, hraises⟩ := raises_of_parse h
  obtain ⟨b, d, hb, ⟨text, htext⟩, hspan⟩ := hraises.runsBetween hvisits.reaches hvisits.founded
  obtain ⟨-, hle, hinside, hstart, hstop⟩ := slice?_of_places hb htext
  have hend : e.error.span.start + e.error.span.length = e.error.span.stop := by
    rw [hspan]
    exact Nat.add_sub_cancel' hle
  rw [hend, hspan]
  refine ⟨hle, hinside, hstart, hstop, fun missing hmissing => ?_⟩
  obtain ⟨hlimit, hreason⟩ := hraises.endOfInput hmissing
  have hsource : p.cursor.limit = utf8Length source.toList :=
    hvisits.reaches.limit_eq.symm.trans (Nat.zero_add _)
  rw [← hspan, hlimit, hsource]
  exact ⟨rfl, Nat.sub_self _, p, hvisits, hraises, hreason⟩

/-- A source with letters of two and three bytes before and in a comment that is not closed. -/
def openRemarkSource : String := "<p>ö \x7b\x7ba.ß\x7d\x7d</p>\n\x7b\x7b! €10"

theorem Template.span_of_parse_error_remark :
    ∃ e, Template.parse openRemarkSource "remark.hbs" = .error e ∧
      e.error = ⟨.endOfInput (.commentClose "\x7d\x7d"), ⟨28, 28⟩⟩ ∧
      utf8Length openRemarkSource.toList = 28 ∧
      isBoundary openRemarkSource.toList e.error.span.start = true ∧
      ∃ p, Visits openRemarkSource.toList p ∧ Raises p e.error ∧
        (p.cursor.rest = [] ∨ ∃ closing d, Searches p closing d ∧
          closing = Token.mustacheClose ∧ ¬ closing <:+: d.rest) := by
  have hread : Template.parseError? openRemarkSource "remark.hbs" =
      some ⟨.endOfInput (.commentClose "\x7d\x7d"), ⟨28, 28⟩⟩ := by decide +kernel
  have h := parse_of_parseError? hread
  obtain ⟨-, -, hstart, -, hend⟩ := span_of_parse_error h
  obtain ⟨-, -, p, hvisits, hraises, hreason⟩ := hend _ rfl
  refine ⟨_, h, rfl, by decide +kernel, hstart, p, hvisits, hraises, hreason.imp_right ?_⟩
  rintro ⟨closing, d, hsearches, hclosing, hmissing⟩
  exact ⟨closing, d, hsearches, (Option.some.inj hclosing).symm, hmissing⟩

end Bracework
