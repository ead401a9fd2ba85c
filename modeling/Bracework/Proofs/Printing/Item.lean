/-
Printing — marks, comments and texts read back as the items they were.

Every printed statement other than a text begins with a mark, and the mark at
the head of it is its own: the delimiters that share a beginning are told apart
by the character behind it, and that character comes from the printed call.  A
text is the other case: no mark may stand in it, nor where it meets its
neighbour.
-/
import Bracework.Proofs.Printing.Tag
import Bracework.Proofs.Reading.Statements

namespace Bracework

open Reading

/-! ## Marks -/

theorem Mark.of_curly (x : Char) (cs : List Char)
    (he : Token.startsElse ('{' :: '{' :: x :: cs) = false)
    (hs : x ≠ '/') (hr : x ≠ '!') (hb : x ≠ '#') : Mark.of ('{' :: '{' :: x :: cs) = .mustache := by
  simp [Mark.of, he, Token.closingTagOpen, Token.blockClose, Token.longRemarkOpen,
    Token.remarkOpen, Token.blockOpen, Token.mustacheOpen, List.isPrefixOf, hs.symm, hr.symm,
    hb.symm]

/-- Of the words, only `else` makes an else mark. -/
theorem Token.startsElse_word {word r : List Char} (hw : IsWordText word) (hr : Ends isPathChar r)
    (he : word ≠ ['e', 'l', 's', 'e']) : startsElse (mustacheOpen ++ (word ++ r)) = false := by
  unfold startsElse
  rw [Bool.and_eq_false_iff, or_iff_not_imp_left, Bool.not_eq_false]
  intro hp
  have hp : ['e', 'l', 's', 'e'] <+: word ++ r := by
    simpa [elseOpen, mustacheOpen] using hp
  obtain ⟨after, rfl⟩ := prefix_of_ends (List.all_eq_true.mp rfl) hr hp
  cases after with
  | nil => exact absurd rfl he
  | cons x after =>
      have hx := hw.2 x (by simp)
      have hclose : x ≠ '}' := ne_of_class hx (by decide)
      simp [mustacheOpen, elseOpen, isSpace_of_isPathChar hx, hclose]

/-- Two braces and a printed call are an else mark only if the callee is the word `else`. -/
theorem Call.startsElse_source {call : Call} (h : call.isPrintable false = true)
    (he : call.callee.isWord "else" = false) {r : List Char} (hr : ClosesCall false r) :
    Token.startsElse (Token.mustacheOpen ++ (call.source ++ r)) = false := by
  obtain ⟨callee, params, hash⟩ := call
  simp only [isPrintable, Bool.and_eq_true] at h
  have hcallee := h.1.1.1
  have hends := endsWord_arguments params hash hr.endsWord
  rw [source, List.append_assoc, List.append_assoc]
  rcases Expression.source_cases hcallee with hw | ⟨x, others, hs, hx⟩
  · refine Token.startsElse_word hw hends.ends_isPathChar fun hs => ?_
    rw [Expression.isWord_of_source "else" hcallee hs rfl (by decide) (by decide)] at he
    cases he
  · rw [hs]
    rcases hx with rfl | rfl | rfl <;>
      simp [Token.startsElse, Token.elseOpen, Token.mustacheOpen, List.isPrefixOf]

theorem Mark.of_mustache {m : Mustache} (h : m.isPrintable = true)
    (he : (m.trusting || !m.call.callee.isWord "else") = true) (r : List Char) :
    Mark.of (m.source ++ r) = .mustache := by
  rw [Mustache.source_eq]
  cases ht : m.trusting with
  | true =>
      have helse (cs : List Char) : Token.startsElse ('{' :: '{' :: '{' :: cs) = false := by
        simp [Token.startsElse, Token.elseOpen]
      exact of_curly '{' _ (helse _) (by decide) (by decide) (by decide)
  | false =>
      rw [ht, Bool.false_or, Bool.not_eq_true'] at he
      obtain ⟨x, others, hs, hx⟩ := m.call.source_head h
      have helse := Call.startsElse_source h he (Mustache.closing_closesCall false r)
      rw [List.append_assoc, List.append_assoc]
      rw [hs] at helse ⊢
      exact of_curly x _ helse (Token.ne_of_class hx (by decide)) (Token.ne_of_class hx (by decide))
        (Token.ne_of_class hx (by decide))

/-! ## Texts -/

theorem Mark.of_text {cs : List Char} (h : Token.startsMark cs = false) : Mark.of cs = .text := by
  simp only [Token.startsMark, Bool.or_eq_false_iff] at h
  obtain ⟨⟨hcurly, htag⟩, hcomment⟩ := h
  have hclosing : Token.closingTagOpen.isPrefixOf cs = false := by
    rw [← Bool.not_eq_true]
    intro hp
    obtain ⟨after, rfl⟩ := List.isPrefixOf_iff_prefix.mp hp
    simp [Token.startsTag, Token.closingTagOpen] at htag
  have hlonger (mark : List Char) (hm : Token.mustacheOpen <+: mark) :
      mark.isPrefixOf cs = false := by
    rw [← Bool.not_eq_true]
    intro hp
    rw [List.isPrefixOf_iff_prefix.mpr (hm.trans (List.isPrefixOf_iff_prefix.mp hp))] at hcurly
    cases hcurly
  have helse : Token.startsElse cs = false := by
    rw [Token.startsElse, hlonger _ (by decide), Bool.false_and]
  have hblock := hlonger Token.blockClose (by decide)
  have hlong := hlonger Token.longRemarkOpen (by decide)
  have hremark := hlonger Token.remarkOpen (by decide)
  have hopen := hlonger Token.blockOpen (by decide)
  simp [of, hclosing, hblock, helse, hlong, hremark, hopen, hcurly, hcomment, htag]

/-- What ends a text: the end of the source, or a mark. -/
def StopsText (r : List Char) : Prop := r = [] ∨ Token.startsMark r = true

/-- A text in front of another does not run into it. -/
def Text.Meets (t : Text) (r : List Char) : Prop :=
  StopsText r ∧ (Token.endsWithBrace t.chars.toList = true → r.head? ≠ some '{')

theorem Token.startsMark_head {r : List Char} (h : startsMark r = true) :
    ∃ x xs, r = x :: xs ∧ (x = '{' ∨ x = '<') := by
  simp only [startsMark, Bool.or_eq_true] at h
  rcases h with (h | h) | h
  · obtain ⟨after, rfl⟩ := List.isPrefixOf_iff_prefix.mp h
    exact ⟨_, _, rfl, .inl rfl⟩
  · unfold startsTag at h
    split at h
    · exact ⟨_, _, rfl, .inr rfl⟩
    · cases h
  · obtain ⟨after, rfl⟩ := List.isPrefixOf_iff_prefix.mp h
    exact ⟨_, _, rfl, .inr rfl⟩

theorem Token.startsTag_cons (x y : Char) (cs : List Char) :
    startsTag (x :: y :: cs) = (x == '<' && (y.isAlpha || y == '/')) := by
  by_cases hx : x = '<'
  · subst hx
    rfl
  · unfold startsTag
    split
    · rename_i heq
      exact absurd (List.cons.inj heq).1 hx
    · simp [hx]

theorem Token.commentOpen_append {text r : List Char} (hne : text ≠ [])
    (h : commentOpen.isPrefixOf text = false) (hr : ∀ x ∈ r.head?, x = '{' ∨ x = '<') :
    commentOpen.isPrefixOf (text ++ r) = false := by
  refine Bool.eq_false_iff.mpr fun hp => ?_
  obtain ⟨c, rest, hmark, hc⟩ := seam_of_isPrefixOf hp h
  cases text with
  | nil => exact hne rfl
  | cons x text =>
      have hmem : c ∈ ['!', '-', '-'] := (List.cons.inj hmark).2 ▸ by simp
      rcases hr c hc with rfl | rfl <;> simp at hmem

theorem Token.startsTag_append {text r : List Char} (hne : text ≠ [])
    (h : startsTag text = false) (hr : ∀ x ∈ r.head?, x = '{' ∨ x = '<') :
    startsTag (text ++ r) = false := by
  cases text with
  | nil => exact absurd rfl hne
  | cons x text =>
      cases text with
      | cons y text =>
          rw [startsTag_cons] at h
          exact (startsTag_cons ..).trans h
      | nil =>
          cases r with
          | nil => exact h
          | cons y r =>
              refine (startsTag_cons ..).trans ?_
              rcases hr y rfl with rfl | rfl <;> exact Bool.and_false _

theorem Token.startsMark_append {text r : List Char} (hne : text ≠ [])
    (h : startsMark text = false) (hr : StopsText r)
    (hb : endsWithBrace text = true → r.head? ≠ some '{') : startsMark (text ++ r) = false := by
  have hhead : ∀ x ∈ r.head?, x = '{' ∨ x = '<' := by
    rcases hr with rfl | hr
    · simp
    · obtain ⟨x, xs, rfl, hx⟩ := startsMark_head hr
      simpa using hx
  simp only [startsMark, Bool.or_eq_false_iff] at h
  rw [startsMark, mustacheOpen_append hne h.1.1 hb, startsTag_append hne h.1.2 hhead,
    commentOpen_append hne h.2 hhead]
  rfl

theorem textTail_append {text r : List Char} (h : Token.somewhere Token.startsMark text = false)
    (hr : StopsText r) (hb : Token.endsWithBrace text = true → r.head? ≠ some '{') :
    textTail (text ++ r) = text := by
  induction text with
  | nil =>
      rcases hr with rfl | hr
      · rfl
      · obtain ⟨x, xs, rfl, -⟩ := Token.startsMark_head hr
        exact if_pos hr
  | cons x text ih =>
      rw [Token.somewhere, Bool.or_eq_false_iff] at h
      have hmark := Token.startsMark_append (by simp) h.1 hr hb
      have hbrace : Token.endsWithBrace text = true → r.head? ≠ some '{' :=
        fun ht => hb (Token.endsWithBrace_cons ht)
      rw [List.cons_append] at hmark ⊢
      rw [textTail, ih h.2 hbrace]
      exact if_neg (by rw [← Token.startsMark, hmark]; decide)

theorem Text.readsBack {t : Text} {r : List Char} (h : t.isPrintable = true) (hr : t.Meets r) :
    ReadsBack (fun c s d => ReadsItem c (.leaf s) d) Statement.eraseSpans (.text t)
      t.chars.toList r := by
  intro c hc
  rw [isPrintable, Bool.and_eq_true, Bool.not_eq_true', Bool.not_eq_true'] at h
  obtain ⟨hne, hmarks⟩ := h
  have hne : t.chars.toList ≠ [] := by simpa using hne
  obtain ⟨x, xs, hx⟩ := List.exists_cons_of_ne_nil hne
  have hall := Token.somewhere_eq_false_iff.mp hmarks
  have hmark := Token.startsMark_append hne (hall _ hne (List.suffix_refl _)) hr.1 hr.2
  have htail : textTail (xs ++ r) = xs := by
    rw [hx, Token.somewhere, Bool.or_eq_false_iff] at hmarks
    exact textTail_append hmarks.2 hr.1 fun hb => hr.2 (hx ▸ Token.endsWithBrace_cons hb)
  rw [← hc] at hmark
  have hcons : c.rest = x :: (xs ++ r) := by rw [hc, hx]; rfl
  have hread := ReadsItem.text (Mark.of_text hmark) hcons
  rw [htail, ← hx, String.ofList_toList] at hread
  exact ⟨_, _, hread, Cursor.rest_advance hc, rfl⟩

/-! ## Comments -/

theorem readsComment_back {html : Bool} {opening closing : List Char} {value : String}
    {c : Cursor} {r : List Char} (hne : closing ≠ []) (hu : Token.Unbordered closing)
    (hv : Token.occursIn closing value.toList = false)
    (hc : c.rest = opening ++ (value.toList ++ (closing ++ r))) :
    ∃ span d, ReadsComment html opening closing c ⟨value, html, span⟩ d ∧ d.rest = r := by
  have hsplit := splitAtFirst?_append r hne hu hv
  rw [← Cursor.rest_advance hc] at hsplit
  have hread : ReadsComment html opening closing c _ _ :=
    .comment (Cursor.startsWith_of_rest hc) hsplit
  rw [String.ofList_toList] at hread
  exact ⟨_, _, hread, rfl⟩

theorem Comment.readsBack {comment : Comment} {r : List Char} (h : comment.isPrintable = true) :
    ReadsBack (fun c s d => ReadsItem c (.leaf s) d) Statement.eraseSpans (.comment comment)
      comment.source r := by
  intro c hc
  obtain ⟨value, html, span⟩ := comment
  rw [isPrintable, Bool.not_eq_true'] at h
  cases html with
  | true =>
      have hrest : c.rest = Token.commentOpen ++ (value.toList ++ (Token.commentClose ++ r)) := by
        rw [hc]
        simp [source]
      obtain ⟨span', d, hread, hd⟩ :=
        readsComment_back (by decide) Token.unbordered_commentClose h hrest
      exact ⟨_, d, .comment (by rw [hrest]; rfl) hread, hd, rfl⟩
  | false =>
      have hrest : c.rest =
          Token.longRemarkOpen ++ (value.toList ++ (Token.longRemarkClose ++ r)) := by
        rw [hc]
        simp [source]
      obtain ⟨span', d, hread, hd⟩ :=
        readsComment_back (by decide) Token.unbordered_longRemarkClose h hrest
      exact ⟨_, d, .longRemark (by rw [hrest]; rfl) hread, hd, rfl⟩

/-! ## Mustaches -/

theorem Mustache.item_readsBack {m : Mustache} {r : List Char} (h : m.isPrintable = true)
    (he : (m.trusting || !m.call.callee.isWord "else") = true) :
    ReadsBack (fun c s d => ReadsItem c (.leaf s) d) Statement.eraseSpans (.mustache m)
      m.source r := by
  intro c hc
  obtain ⟨m', d, hread, hd, hm⟩ := Mustache.readsBack h c hc
  refine ⟨.mustache m', d, .mustache (hc ▸ Mark.of_mustache h he r) hread, hd, ?_⟩
  rw [Statement.eraseSpans, Statement.eraseSpans, hm]

/-! ## Tags and the marks of blocks -/

theorem Mark.of_tag {x : Char} (cs : List Char) (h : x.isAlpha = true) :
    Mark.of ('<' :: x :: cs) = .openingTag := by
  have hslash : '/' ≠ x := by
    rintro rfl
    cases h
  have hbang : '!' ≠ x := by
    rintro rfl
    cases h
  simp [of, Token.startsElse, Token.closingTagOpen, Token.blockClose, Token.elseOpen,
    Token.longRemarkOpen, Token.remarkOpen, Token.blockOpen, Token.mustacheOpen,
    Token.commentOpen, Token.startsTag, List.isPrefixOf, hslash, hbang, h]

theorem openTag_readsBack {tag : String} {attributes : List Attribute}
    {modifiers : List Mustache} (ht : isPrintableTag tag = true)
    (ha : attributes.all Attribute.isPrintable = true)
    (hm : modifiers.all Mustache.isPrintable = true) (selfClosing : Bool) {r : List Char}
    {c : Cursor}
    (hc : c.rest = openingSource tag attributes modifiers ++ (tagEnd selfClosing ++ r)) :
    ∃ opened d, ReadsItem c (.openTag opened) d ∧ d.rest = r ∧ opened.tag = tag ∧
      opened.selfClosing = selfClosing ∧
      opened.attributes.map Attribute.eraseSpans = attributes.map Attribute.eraseSpans ∧
      opened.modifiers.map Mustache.eraseSpans = modifiers.map Mustache.eraseSpans := by
  obtain ⟨attributes', modifiers', span, d, hread, hd, hea, hem⟩ :=
    openingTagReadsBack ht ha hm selfClosing hc
  obtain ⟨x, xs, hx, halpha, -⟩ := isPrintableTag_iff.mp ht
  refine ⟨_, d, .openingTag ?_ hread, hd, rfl, rfl, hea, hem⟩
  rw [hc, openingSource, hx]
  exact Mark.of_tag _ halpha

theorem closeTag_readsBack {tag : String} (ht : isPrintableTag tag = true) {r : List Char}
    {c : Cursor} (hc : c.rest = Token.closingTagOpen ++ (tag.toList ++ (Token.tagClose ++ r))) :
    ∃ span d, ReadsItem c (.closeTag tag span) d ∧ d.rest = r := by
  have hall := isTagChar_of_isPrintableTag ht
  have hend : Ends Token.isTagChar (Token.tagClose ++ r) := ends_cons.mpr (by decide)
  have hin := Cursor.rest_advance hc
  have hskip := Cursor.rest_skipSpace (Cursor.rest_skip hin hall hend)
    (ends_cons.mpr CharClass.isSpace_angle)
  have hread := ReadsItem.closingTag (by rw [hc]; rfl) rfl (Cursor.startsWith_of_rest hskip) rfl
  rw [Cursor.taken_of_rest hin hall hend, String.ofList_toList] at hread
  exact ⟨_, _, hread, Cursor.rest_advance hskip⟩

theorem openBlock_readsBack {call : Call} {params : List String} {r : List Char}
    (h : call.isPrintable (!params.isEmpty) = true) (hp : params.all isArgumentName = true)
    (c : Cursor) (hc : c.rest = Token.blockOpen ++ (call.source ++ behindCall params r)) :
    ∃ call' d, ReadsItem c (.openBlock ⟨call', params, c.offset⟩) d ∧ d.rest = r ∧
      call'.eraseSpans = call.eraseSpans := by
  have hin := Cursor.rest_skipSpace (Cursor.rest_advance hc) (Call.ends_isSpace h _)
  obtain ⟨call', d, hread, hd, he⟩ := blockHeadReadsBack h hp c.offset _ hin
  exact ⟨call', _, .openingBlock (by rw [hc]; rfl) hread (Cursor.startsWith_of_rest hd),
    Cursor.rest_advance hd, he⟩

theorem elseMark_readsBack {c : Cursor} {r : List Char}
    (hc : c.rest = Token.elseOpen ++ (Token.mustacheClose ++ r)) :
    ∃ span d, ReadsItem c (.elseMark none span) d ∧ d.rest = r := by
  have hin := Cursor.rest_skipSpace (Cursor.rest_advance hc)
    (ends_cons.mpr CharClass.isSpace_brace)
  exact ⟨_, _, .bareElse (by rw [hc]; rfl) (Cursor.startsWith_of_rest hin),
    Cursor.rest_advance hin⟩

theorem closeBlock_readsBack {name : String}
    (hn : ∀ x ∈ name.toList, Token.isPathChar x = true) {r : List Char} {c : Cursor}
    (hc : c.rest = Token.blockClose ++ (name.toList ++ (Token.mustacheClose ++ r))) :
    ∃ span d, ReadsItem c (.closeBlock name span) d ∧ d.rest = r := by
  have hend : Ends Token.isPathChar (Token.mustacheClose ++ r) := ends_cons.mpr (by decide)
  have hspace : Ends CharClass.isSpace (name.toList ++ (Token.mustacheClose ++ r)) := by
    cases hx : name.toList with
    | nil => exact ends_cons.mpr CharClass.isSpace_brace
    | cons x xs => exact ends_cons.mpr (Token.isSpace_of_isPathChar (hn x (by simp [hx])))
  have hin : (behindBlockClose c).rest = name.toList ++ (Token.mustacheClose ++ r) :=
    Cursor.rest_skipSpace (Cursor.rest_advance hc) hspace
  have hskip := Cursor.rest_skipSpace (Cursor.rest_skip hin hn hend)
    (ends_cons.mpr CharClass.isSpace_brace)
  have hread := ReadsItem.closingBlock (by rw [hc]; rfl) rfl (Cursor.startsWith_of_rest hskip) rfl
  rw [Cursor.taken_of_rest hin hn hend, String.ofList_toList] at hread
  exact ⟨_, _, hread, Cursor.rest_advance hskip⟩

end Bracework
