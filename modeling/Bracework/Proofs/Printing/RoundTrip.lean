/-
Printing — a printed template reads back.

What is printed is one of the texts that write a template: the one in which no
inverse is in chained form.
-/
import Bracework.Proofs.Printing.Chained

namespace Bracework

theorem statementsReadBack (ss : List Statement) {braceCloses : Bool}
    (h : statementsPrintable ss braceCloses = true) {r : List Char} (hr : ClosesList braceCloses r) :
    ReadsBack ReadsStatements eraseStatementsSpans ss (statementsSource ss) r :=
  (writes_statementsSource ss).readsBack h hr

/-- A printable template is denoted by its text, apart from where its nodes stand. -/
theorem Template.parse_print {t : Template} (h : t.isPrintable = true) (filename : String) :
    ∃ t', Template.parse t.print filename = .ok t' ∧ t'.eraseSpans = t.eraseSpans := by
  obtain ⟨body, params⟩ := t
  rw [isPrintable, Bool.and_eq_true, List.isEmpty_iff] at h
  obtain ⟨rfl, hbody⟩ := h
  obtain ⟨body', d, hread, hd, he⟩ := statementsReadBack body hbody ⟨.inl rfl, by simp⟩
    (Cursor.ofChars (statementsSource body)) (List.append_nil _).symm
  have hparse : Template.ofChars (statementsSource body) = .ok ⟨body', []⟩ :=
    ofChars_eq_ok_iff.mpr ⟨rfl, d, hread, hd⟩
  refine ⟨⟨body', []⟩, ?_, by rw [eraseSpans, eraseSpans, he]⟩
  rw [parse, print, String.toList_ofList, source, hparse]

/-- A template in which texts, marks and words meet closely. -/
def Template.card : Template where
  body := [
    .text ⟨"1 < 2 \x7d", .none⟩,
    .element ⟨"My.Card",
      [⟨"class", .concat [.text ⟨"a \x7bb\x7d", .none⟩,
        .mustache { call := ⟨.path ⟨"if", .none⟩, [.path ⟨"@on", .none⟩], []⟩ }], .none⟩,
       ⟨"hidden", .text ⟨"", .none⟩, .none⟩],
      [{ call := ⟨.path ⟨"on", .none⟩, [.literal (.string "say \"hi\""),
        .sub ⟨.path ⟨"as", .none⟩, [], []⟩ .none], [("as", .literal (.boolean true))]⟩ }],
      [.comment { value := "-- \x7d\x7d" },
       .block ⟨⟨.path ⟨"each", .none⟩, [.path ⟨"this.items", .none⟩], []⟩,
        ⟨[.mustache { call := ⟨.path ⟨"else", .none⟩, [], []⟩, trusting := true }], ["item", "n"]⟩,
        some ⟨[.text ⟨"\x7d", .none⟩], []⟩, .none⟩],
      false, .none⟩]

theorem Template.parse_print_card : Template.card.isPrintable = true ∧
    ∃ t', Template.parse Template.card.print "card.hbs" = .ok t' ∧
      t'.eraseSpans = Template.card.eraseSpans :=
  ⟨by decide, Template.parse_print (by decide) "card.hbs"⟩

end Bracework
