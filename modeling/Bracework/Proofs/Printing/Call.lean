/-
Printing — expressions and calls read back.

A printed expression is a word, or it begins with a quote or a parenthesis; no
lookahead of the argument loop answers on either.  The loop is then followed
argument by argument.  What may stand behind an expression is a blank or a
closing delimiter, and what closes a call is a delimiter or the introduction of
block parameters: `EndsWord` and `ClosesCall` are the only side conditions.
-/
import Bracework.Proofs.Number.ReadBack
import Bracework.Proofs.Printing.Lookahead

namespace Bracework

open Reading

/-- Where a text stands before another, something can be read that is the same apart from
its spans, and reading goes on at the other text. -/
def ReadsBack {α β : Type} (reads : Cursor → α → Cursor → Prop) (erase : α → β) (value : α)
    (text behind : List Char) : Prop :=
  ∀ c : Cursor, c.rest = text ++ behind →
    ∃ read d, reads c read d ∧ d.rest = behind ∧ erase read = erase value

/-! ## What stands behind an expression -/

/-- What may stand behind an expression: a blank, or the beginning of a closing delimiter. -/
def EndsWord (r : List Char) : Prop := ∀ x ∈ r.head?, x = ' ' ∨ x = '}' ∨ x = ')'

/-- What closes a call, where block parameters are to follow and where not. -/
inductive ClosesCall : Bool → List Char → Prop
  | paren {withParams : Bool} {r : List Char} : ClosesCall withParams (')' :: r)
  | curly {withParams : Bool} {r : List Char} : ClosesCall withParams ('}' :: '}' :: r)
  | params {r : List Char} : ClosesCall true (' ' :: 'a' :: 's' :: ' ' :: r)

theorem EndsWord.ends {r : List Char} {test : Char → Bool} (h : EndsWord r)
    (hb : test ' ' = false) (hc : test '}' = false) (hp : test ')' = false) : Ends test r := by
  intro x hx
  rcases h x hx with rfl | rfl | rfl
  · exact hb
  · exact hc
  · exact hp

theorem EndsWord.ends_isPathChar {r : List Char} (h : EndsWord r) : Ends Token.isPathChar r :=
  h.ends (by decide) (by decide) (by decide)

@[simp] theorem endsWord_blank {r : List Char} : EndsWord (' ' :: r) := by
  simp [EndsWord]

theorem ClosesCall.endsWord {withParams : Bool} {r : List Char} (h : ClosesCall withParams r) :
    EndsWord r := by
  cases h <;> simp [EndsWord]

theorem ClosesCall.endsCall {withParams : Bool} {r : List Char} (h : ClosesCall withParams r) :
    Token.endsCall (r.dropWhile CharClass.isSpace) = true := by
  have ha : CharClass.isSpace 'a' = false := by decide
  cases h with
  | paren => simp [Token.endsCall, Token.subClose]
  | curly => simp [Token.endsCall, Token.mustacheClose]
  | params => simp [ha, Token.endsCall, Token.paramsOpen]

/-- Without block parameters, no blank follows a call. -/
theorem ClosesCall.no_blank {r : List Char} (h : ClosesCall false r) : ∀ x ∈ r.head?, x ≠ ' ' := by
  cases h <;> simp

/-! ## The head of an expression -/

/-- A text of characters of a path. -/
def IsWordText (text : List Char) : Prop := text ≠ [] ∧ ∀ x ∈ text, Token.isPathChar x = true

/-- A text that begins with a quote or a parenthesis. -/
def IsDelimited (text : List Char) : Prop :=
  ∃ x others, text = x :: others ∧ (x = '"' ∨ x = '\'' ∨ x = '(')

/-- The characters that a printed expression may begin with. -/
def startsExpression (x : Char) : Bool :=
  Token.isPathChar x || x == '"' || x == '\'' || x == '('

theorem IsNumeralText.isWordText {text : List Char} (h : IsNumeralText text) :
    IsWordText text := by
  obtain ⟨first, others, rfl, hf, ho⟩ := h
  have hdigit {x : Char} (hx : x.isDigit = true) : Token.isPathChar x = true :=
    Token.isPathChar_of_isNameChar (Token.isNameChar_of_isDigit hx)
  refine ⟨by simp, fun x hx => ?_⟩
  cases hx with
  | head => exact hdigit hf
  | tail _ hx =>
      rcases Bool.or_eq_true_iff.mp (ho x hx) with hd | hp
      · exact hdigit hd
      · rw [eq_of_beq hp]
        decide

theorem isAlpha_of_isDigit {x : Char} (h : x.isDigit = true) : x.isAlpha = false := by
  refine Bool.eq_false_iff.mpr fun ha => ?_
  have hd : x.toNat ≤ 57 := (Char.isDigit_iff_toNat.mp h).2
  have hletter := Token.isAlpha_iff_toNat.mp ha
  omega

theorem Literal.isWordText_of_mem_words {word : List Char} (h : word ∈ Literal.words) :
    IsWordText word := by
  simp only [words, List.mem_cons, List.not_mem_nil, or_false] at h
  rcases h with rfl | rfl | rfl | rfl <;> exact ⟨by simp, List.all_eq_true.mp rfl⟩

theorem Literal.source_cases {l : Literal} (h : l.isPrintable = true) :
    IsWordText l.source ∨ IsDelimited l.source := by
  cases l with
  | string text =>
      refine .inr ⟨_, _, rfl, ?_⟩
      split
      · exact .inr (.inl rfl)
      · exact .inl rfl
  | number value =>
      cases value with
      | finite negative code =>
          have ht := (Binary64.isNumeralText_magnitude code.val).isWordText
          refine .inl ?_
          rw [source, Binary64.numeral_finite]
          cases negative with
          | false => exact ht
          | true =>
              refine ⟨by simp, fun x hx => ?_⟩
              cases hx with
              | head => decide
              | tail _ hx => exact ht.2 x hx
      | infinite _ => cases h
      | nan => cases h
  | boolean value =>
      refine .inl (isWordText_of_mem_words ?_)
      cases value <;> decide
  | null => exact .inl (isWordText_of_mem_words (by decide))
  | undefined => exact .inl (isWordText_of_mem_words (by decide))

theorem Path.isPrintable_iff {p : Path} : p.isPrintable = true ↔
    IsWordText p.text.toList ∧ startsNumeral p.text.toList = false ∧
      p.text.toList ∉ Literal.words := by
  simp [isPrintable, IsWordText, and_assoc]

theorem Expression.source_cases {e : Expression} (h : e.isPrintable = true) :
    IsWordText e.source ∨ IsDelimited e.source := by
  cases e with
  | path p => exact .inl (Path.isPrintable_iff.mp h).1
  | literal l => exact Literal.source_cases h
  | sub call span => exact .inr ⟨_, _, rfl, .inr (.inr rfl)⟩

theorem Expression.source_head {e : Expression} (h : e.isPrintable = true) :
    ∃ x others, e.source = x :: others ∧ startsExpression x = true := by
  rcases source_cases h with ⟨hne, hw⟩ | ⟨x, others, hs, hx⟩
  · obtain ⟨x, others, hs⟩ := List.exists_cons_of_ne_nil hne
    refine ⟨x, others, hs, ?_⟩
    simp [startsExpression, hw x (by simp [hs])]
  · refine ⟨x, others, hs, ?_⟩
    rcases hx with rfl | rfl | rfl <;> decide

theorem isSpace_of_startsExpression {x : Char} (h : startsExpression x = true) :
    CharClass.isSpace x = false := by
  simp only [startsExpression, Bool.or_eq_true, beq_iff_eq] at h
  rcases h with ((h | rfl) | rfl) | rfl
  · exact Token.isSpace_of_isPathChar h
  all_goals decide

theorem Expression.ends_isSpace {e : Expression} (h : e.isPrintable = true) (r : List Char) :
    Ends CharClass.isSpace (e.source ++ r) := by
  obtain ⟨x, others, hs, hx⟩ := source_head h
  rw [hs, List.cons_append, ends_cons]
  exact isSpace_of_startsExpression hx

/-- A literal is a constant, or it does not begin with a letter. -/
theorem Literal.source_letter {l : Literal} (h : l.isPrintable = true) :
    l.source ∈ words ∨ ∀ x ∈ l.source.head?, x.isAlpha = false := by
  cases l with
  | string text =>
      refine .inr fun x hx => ?_
      obtain rfl := Option.some.inj hx
      split <;> decide
  | number value =>
      refine .inr ?_
      cases value with
      | finite negative code =>
          obtain ⟨first, others, ht, hf, -⟩ := Binary64.isNumeralText_magnitude code.val
          rw [source, Binary64.numeral_finite, ht]
          cases negative with
          | true => simp
          | false => simpa using isAlpha_of_isDigit hf
      | infinite _ => cases h
      | nan => cases h
  | boolean value => cases value <;> exact .inl (by decide)
  | null => exact .inl (by decide)
  | undefined => exact .inl (by decide)

/-- What is written as a word that begins with a letter and is no constant is a path. -/
theorem Expression.isWord_of_source (word : String) {e : Expression} {first : Char}
    {others : List Char} (h : e.isPrintable = true) (hs : e.source = word.toList)
    (hw : word.toList = first :: others) (ha : first.isAlpha = true)
    (hc : word.toList ∉ Literal.words) : e.isWord word = true := by
  cases e with
  | path p =>
      have hp : p.text = word := String.toList_inj.mp hs
      simp [isWord, pathText?, hp]
  | literal l =>
      have hl : l.source = word.toList := hs
      rcases Literal.source_letter h with hm | hf
      · exact absurd (hl ▸ hm) hc
      · rw [hl, hw] at hf
        rw [hf first rfl] at ha
        cases ha
  | sub call span =>
      have hp : '(' = first := by
        rw [source, hw] at hs
        exact (List.cons.inj hs).1
      subst hp
      cases ha

/-! ## The lookaheads of the argument loop -/

/-- Whether a text starts with what introduces block parameters. -/
def Token.startsParams (cs : List Char) : Bool :=
  paramsOpen.isPrefixOf cs &&
    match cs.drop paramsOpen.length with
    | c :: _ => CharClass.isSpace c || c == '|'
    | [] => false

theorem Token.endsCall_eq (cs : List Char) : endsCall cs =
    (cs.isEmpty || mustacheClose.isPrefixOf cs || subClose.isPrefixOf cs || startsParams cs) := rfl

theorem Token.endsCall_of_head {x : Char} {cs : List Char} (hc : x ≠ '}') (hp : x ≠ ')')
    (ha : startsParams (x :: cs) = false) : endsCall (x :: cs) = false := by
  rw [endsCall_eq, ha]
  simp [mustacheClose, subClose, List.isPrefixOf, hc.symm, hp.symm]

/-- Of the words, only `as` introduces block parameters, and that before a blank or a bar. -/
theorem Token.startsParams_word {word r : List Char} (hw : IsWordText word)
    (hr : Ends isPathChar r)
    (has : word = paramsOpen → ∀ x ∈ r.head?, (CharClass.isSpace x || x == '|') = false) :
    startsParams (word ++ r) = false := by
  unfold startsParams
  rw [Bool.and_eq_false_iff, or_iff_not_imp_left, Bool.not_eq_false]
  intro hp
  obtain ⟨after, rfl⟩ :=
    prefix_of_ends (List.all_eq_true.mp rfl) hr (List.isPrefixOf_iff_prefix.mp hp)
  rw [List.append_assoc, List.drop_left]
  cases after with
  | nil =>
      cases r with
      | nil => rfl
      | cons x r => exact has (List.append_nil _) x rfl
  | cons x after =>
      have hx := hw.2 x (by simp)
      have hbar : x ≠ '|' := ne_of_class hx (by decide)
      simp [isSpace_of_isPathChar hx, hbar]

theorem Expression.startsParams_source {e : Expression} {r : List Char} (h : e.isPrintable = true)
    (hr : EndsWord r) (has : e.isWord "as" = true → ∀ x ∈ r.head?, x ≠ ' ') :
    Token.startsParams (e.source ++ r) = false := by
  rcases source_cases h with hw | ⟨x, others, hs, hx⟩
  · refine Token.startsParams_word hw hr.ends_isPathChar fun hs x hx => ?_
    have hword := isWord_of_source "as" h hs rfl (by decide) (by decide)
    rcases hr x hx with rfl | rfl | rfl
    · exact absurd rfl (has hword ' ' hx)
    · decide
    · decide
  · rw [hs]
    rcases hx with rfl | rfl | rfl <;> simp [Token.startsParams, Token.paramsOpen]

/-- A call does not end at a printed expression. -/
theorem Expression.endsCall_source {e : Expression} {r : List Char} (h : e.isPrintable = true)
    (hr : EndsWord r) (has : e.isWord "as" = true → ∀ x ∈ r.head?, x ≠ ' ') :
    Token.endsCall (e.source ++ r) = false := by
  have hp := startsParams_source h hr has
  obtain ⟨x, others, hs, hx⟩ := source_head h
  rw [hs] at hp ⊢
  exact Token.endsCall_of_head (Token.ne_of_class hx (by decide))
    (Token.ne_of_class hx (by decide)) hp

/-- A printed expression does not begin with the name of an argument. -/
theorem Expression.argumentName?_source {e : Expression} {r : List Char} (h : e.isPrintable = true)
    (hr : EndsWord r) : Token.argumentName? (e.source ++ r) = none := by
  refine if_neg ?_
  rintro ⟨hne, heq⟩
  rcases source_cases h with ⟨-, hw⟩ | ⟨x, others, hs, hx⟩
  · rw [drop_length_takeWhile, List.dropWhile_append] at heq
    obtain ⟨after, ha⟩ := List.isPrefixOf_iff_prefix.mp heq
    split at ha
    · have hend : Ends Token.isNameChar r := hr.ends (by decide) (by decide) (by decide)
      rw [dropWhile_of_ends hend] at ha
      have hx := hr '=' (by rw [← ha]; rfl)
      simp at hx
    · cases hd : e.source.dropWhile Token.isNameChar with
      | nil => rename_i hnil; simp [hd] at hnil
      | cons y ys =>
          rw [hd] at ha
          have hy : '=' = y := (List.cons.inj ha).1
          have hmem : y ∈ e.source := (List.dropWhile_suffix _).subset (by rw [hd]; exact .head _)
          exact absurd hy.symm (Token.ne_of_class (hw y hmem) (by decide))
  · rw [hs] at hne
    rcases hx with rfl | rfl | rfl <;> exact hne rfl

/-! ## Leaves -/

theorem Token.occursIn_singleton {x : Char} {text : List Char} :
    occursIn [x] text = false ↔ x ∉ text := by
  induction text with
  | nil => simp [occursIn, somewhere]
  | cons y text ih =>
      rw [occursIn, somewhere, ← occursIn, Bool.or_eq_false_iff, ih]
      simp [List.isPrefixOf]

theorem Reading.startsNumeral_append {word r : List Char} (hne : word ≠ [])
    (hr : Ends Char.isDigit r) : startsNumeral (word ++ r) = startsNumeral word := by
  match word with
  | [] => exact absurd rfl hne
  | [x] =>
      cases r with
      | nil => rfl
      | cons y r =>
          rw [ends_cons] at hr
          by_cases hx : x = '-'
          · subst hx
            exact hr
          · unfold startsNumeral
            grind
  | x :: y :: word =>
      by_cases hx : x = '-'
      · subst hx
        rfl
      · unfold startsNumeral
        grind

theorem Reading.readsExpression_word {c : Cursor} {word r : List Char} (hw : IsWordText word)
    (hn : startsNumeral word = false) (hr : EndsWord r) (hc : c.rest = word ++ r) :
    ∃ span d, ReadsExpression c (.ofWord word span) d ∧ d.rest = r := by
  obtain ⟨hne, hall⟩ := hw
  obtain ⟨x, others, rfl⟩ := List.exists_cons_of_ne_nil hne
  have hd : Ends Char.isDigit r := hr.ends (by decide) (by decide) (by decide)
  have hnum := startsNumeral_append hne hd
  rw [hn] at hnum
  have hread := ReadsExpression.word hc hnum (hall x (.head _))
  rw [Cursor.taken_of_rest hc hall hr.ends_isPathChar] at hread
  exact ⟨_, _, hread, Cursor.rest_skip hc hall hr.ends_isPathChar⟩

theorem Expression.ofWord_of_not_mem {word : List Char} {span : Span} (h : word ∉ Literal.words) :
    Expression.ofWord word span = .path ⟨String.ofList word, span⟩ := by
  simp only [Literal.words, List.mem_cons, List.not_mem_nil, or_false, not_or] at h
  rw [ofWord, if_neg h.1, if_neg h.2.1, if_neg h.2.2.1, if_neg h.2.2.2]

theorem Path.readsBack {p : Path} {r : List Char} (h : p.isPrintable = true) (hr : EndsWord r) :
    ReadsBack ReadsExpression Expression.eraseSpans (.path p) p.text.toList r := by
  intro c hc
  obtain ⟨hw, hn, hwords⟩ := Path.isPrintable_iff.mp h
  obtain ⟨span, d, hread, hd⟩ := readsExpression_word hw hn hr hc
  rw [Expression.ofWord_of_not_mem hwords, String.ofList_toList] at hread
  exact ⟨_, d, hread, hd, rfl⟩

theorem Literal.readsBack_string {text : String} {r : List Char}
    (h : (Literal.string text).isPrintable = true) :
    ReadsBack ReadsExpression Expression.eraseSpans (.literal (.string text)) (quote text) r := by
  intro c hc
  unfold quote at hc
  dsimp only at hc
  rw [isPrintable, Bool.not_eq_true', Bool.and_eq_false_iff] at h
  generalize hq : (if text.toList.contains '"' then '\'' else '"') = mark at hc
  have hmark : mark = '"' ∨ mark = '\'' := by
    rw [← hq]
    split
    · exact .inr rfl
    · exact .inl rfl
  have hnot : mark ∉ text.toList := by
    split at hq
    · rename_i hd
      rw [hd] at h
      simpa [← hq] using h
    · rename_i hd
      simpa [← hq] using hd
  have hsplit := splitAtFirst?_append r (by simp) (Token.unbordered_singleton mark)
    (Token.occursIn_singleton.mpr hnot)
  rw [List.cons_append, List.append_assoc] at hc
  have hread := ReadsExpression.string hc hmark hsplit
  rw [String.ofList_toList] at hread
  exact ⟨_, _, hread, rfl, rfl⟩

theorem Reading.startsNumeral_of_isDigit {x : Char} {xs : List Char} (h : x.isDigit = true) :
    startsNumeral (x :: xs) = true := by
  unfold startsNumeral
  split
  · rename_i heq
    obtain ⟨rfl, -⟩ := List.cons.inj heq
    cases h
  · rename_i heq
    obtain ⟨rfl, -⟩ := List.cons.inj heq
    exact h
  · rename_i heq
    cases heq

/-- A numeral is taken for one, and taken whole. -/
theorem Binary64.numeral_shape (negative : Bool) (code : Fin codes) :
    ∃ x xs, (finite negative code).numeral = x :: xs ∧ startsNumeral (x :: xs) = true ∧
      ∀ y ∈ xs, isNumeralChar y = true := by
  obtain ⟨x, xs, ht, hx, hxs⟩ := isNumeralText_magnitude code.val
  rw [numeral_finite, ht]
  cases negative with
  | false => exact ⟨x, xs, rfl, startsNumeral_of_isDigit hx, hxs⟩
  | true =>
      refine ⟨'-', x :: xs, rfl, hx, fun y hy => ?_⟩
      cases hy with
      | head => rw [isNumeralChar, hx, Bool.true_or]
      | tail _ hy => exact hxs y hy

theorem Literal.readsBack_number {negative : Bool} {code : Fin Binary64.codes} {r : List Char}
    (hr : EndsWord r) :
    ReadsBack ReadsExpression Expression.eraseSpans (.literal (.number (.finite negative code)))
      (Binary64.finite negative code).numeral r := by
  intro c hc
  have hend : Ends isNumeralChar r := hr.ends (by decide) (by decide) (by decide)
  have hdigit : Ends Char.isDigit r := hr.ends (by decide) (by decide) (by decide)
  have hvalue := Numeral.read?_numeral negative code
  obtain ⟨x, xs, ht, hnum, hxs⟩ := Binary64.numeral_shape negative code
  rw [ht] at hc hvalue
  rw [← startsNumeral_append (by simp) hdigit] at hnum
  rw [← takeWhile_append_of_ends hxs hend] at hvalue
  exact ⟨_, _, .numeral hc hnum hvalue, dropWhile_append_of_ends hxs hend, rfl⟩

theorem Literal.readsBack {l : Literal} {r : List Char} (h : l.isPrintable = true)
    (hr : EndsWord r) :
    ReadsBack ReadsExpression Expression.eraseSpans (.literal l) l.source r := by
  cases l with
  | string text => exact readsBack_string h
  | number value =>
      cases value with
      | finite negative code => exact readsBack_number hr
      | infinite _ => cases h
      | nan => cases h
  | boolean value =>
      intro c hc
      cases value
      all_goals
        obtain ⟨span, d, hread, hd⟩ := readsExpression_word
          (isWordText_of_mem_words (by decide)) (by decide) hr hc
        exact ⟨_, d, hread, hd, rfl⟩
  | null =>
      intro c hc
      obtain ⟨span, d, hread, hd⟩ := readsExpression_word
        (isWordText_of_mem_words (by decide)) (by decide) hr hc
      exact ⟨_, d, hread, hd, rfl⟩
  | undefined =>
      intro c hc
      obtain ⟨span, d, hread, hd⟩ := readsExpression_word
        (isWordText_of_mem_words (by decide)) (by decide) hr hc
      exact ⟨_, d, hread, hd, rfl⟩

/-! ## Calls -/

/-- A call reads back in front of what closes it; blanks before a delimiter are skipped. -/
def CallReadsBack (call : Call) (r : List Char) : Prop :=
  ∀ c : Cursor, c.rest = call.source ++ r →
    ∃ read d, ReadsCall c read d ∧ d.rest = r.dropWhile CharClass.isSpace ∧
      read.eraseSpans = call.eraseSpans

/-- Arguments read back in front of what closes their call. -/
def ArgumentsReadBack (params : List Expression) (hash : List (String × Expression))
    (r : List Char) : Prop :=
  ∀ c : Cursor, c.rest = paramsSource params ++ (hashSource hash ++ r) →
    ∃ params' hash' d, ReadsArguments c false params' hash' d ∧
      d.rest = r.dropWhile CharClass.isSpace ∧
      eraseParamsSpans params' = eraseParamsSpans params ∧
      eraseHashSpans hash' = eraseHashSpans hash

/-- Named arguments read back in front of what closes their call. -/
def HashReadsBack (hash : List (String × Expression)) (r : List Char) : Prop :=
  ∀ (named : Bool) (c : Cursor), c.rest = hashSource hash ++ r →
    ∃ hash' d, ReadsArguments c named [] hash' d ∧ d.rest = r.dropWhile CharClass.isSpace ∧
      eraseHashSpans hash' = eraseHashSpans hash

theorem endsWord_hash (hash : List (String × Expression)) {r : List Char} (hr : EndsWord r) :
    EndsWord (hashSource hash ++ r) := by
  cases hash with
  | nil => exact hr
  | cons => exact endsWord_blank

theorem endsWord_arguments (params : List Expression) (hash : List (String × Expression))
    {r : List Char} (hr : EndsWord r) :
    EndsWord (paramsSource params ++ (hashSource hash ++ r)) := by
  cases params with
  | nil => exact endsWord_hash hash hr
  | cons => exact endsWord_blank

/-- Without arguments and block parameters, no blank stands behind an expression. -/
theorem arguments_no_blank {params : List Expression} {hash : List (String × Expression)}
    {withParams : Bool} {r : List Char} (hr : ClosesCall withParams r)
    (h : (withParams || !hash.isEmpty || !params.isEmpty) = false) :
    ∀ x ∈ (paramsSource params ++ (hashSource hash ++ r)).head?, x ≠ ' ' := by
  simp only [Bool.or_eq_false_iff, Bool.not_eq_false', List.isEmpty_iff] at h
  obtain ⟨⟨rfl, rfl⟩, rfl⟩ := h
  exact hr.no_blank

theorem isArgumentName_iff {name : String} : isArgumentName name = true ↔
    name.toList ≠ [] ∧ ∀ x ∈ name.toList, Token.isNameChar x = true := by
  simp [isArgumentName]

/-- The name of an argument is found, and a call does not end at it. -/
theorem Token.argumentName?_append {name : String} (r : List Char)
    (h : isArgumentName name = true) :
    Ends CharClass.isSpace (name.toList ++ '=' :: r) ∧
      endsCall (name.toList ++ '=' :: r) = false ∧
      argumentName? (name.toList ++ '=' :: r) = some name.toList := by
  obtain ⟨hne, hall⟩ := isArgumentName_iff.mp h
  have hpath : ∀ x ∈ name.toList, isPathChar x = true :=
    fun x hx => isPathChar_of_isNameChar (hall x hx)
  have hends : Ends isNameChar ('=' :: r) := ends_cons.mpr (by decide)
  have hparams : startsParams (name.toList ++ '=' :: r) = false :=
    startsParams_word ⟨hne, hpath⟩ (ends_cons.mpr (by decide)) fun _ x hx => by
      obtain rfl := Option.some.inj hx
      decide
  have htake := takeWhile_append_of_ends hall hends
  have hdrop := dropWhile_append_of_ends hall hends
  have hname : argumentName? (name.toList ++ '=' :: r) = some name.toList := by
    unfold argumentName?
    dsimp only
    rw [drop_length_takeWhile, htake, hdrop, if_pos ⟨hne, by simp [equals]⟩]
  refine ⟨?_, ?_, hname⟩
  · obtain ⟨x, xs, hx⟩ := List.exists_cons_of_ne_nil hne
    rw [hx, List.cons_append, ends_cons]
    exact isSpace_of_isPathChar (hpath x (by simp [hx]))
  · obtain ⟨x, xs, hx⟩ := List.exists_cons_of_ne_nil hne
    have hp := hpath x (by simp [hx])
    rw [hx] at hparams ⊢
    exact endsCall_of_head (ne_of_class hp (by decide)) (ne_of_class hp (by decide)) hparams

theorem Reading.rest_behindName {c : Cursor} {name r : List Char} (hc : c.rest = name ++ '=' :: r)
    (hr : Ends CharClass.isSpace r) : (behindName c name).rest = r := by
  have hsplit : c.rest = (name ++ ['=']) ++ r := by
    rw [hc, List.append_assoc]
    rfl
  have hvalue : (c.advance (name.length + 1)).rest = r := by
    simpa using Cursor.rest_advance hsplit
  exact Cursor.rest_skipSpace hvalue hr

theorem Call.source_head (call : Call) {withParams : Bool}
    (h : call.isPrintable withParams = true) :
    ∃ x others, call.source = x :: others ∧ startsExpression x = true := by
  obtain ⟨callee, params, hash⟩ := call
  simp only [isPrintable, Bool.and_eq_true] at h
  obtain ⟨x, others, hs, hx⟩ := Expression.source_head h.1.1.1
  refine ⟨x, others ++ paramsSource params ++ hashSource hash, ?_, hx⟩
  rw [source, hs]
  rfl

theorem Call.ends_isSpace {call : Call} {withParams : Bool}
    (h : call.isPrintable withParams = true) (r : List Char) :
    Ends CharClass.isSpace (call.source ++ r) := by
  obtain ⟨x, others, hs, hx⟩ := source_head _ h
  rw [hs, List.cons_append, ends_cons]
  exact isSpace_of_startsExpression hx

mutual
theorem Expression.readsBack : {e : Expression} → e.isPrintable = true → {r : List Char} →
    EndsWord r → ReadsBack ReadsExpression Expression.eraseSpans e e.source r
  | .path _, h, _, hr => Path.readsBack h hr
  | .literal _, h, _, hr => Literal.readsBack h hr
  | .sub call span, h, r, hr => by
      intro c hc
      have hend : Ends CharClass.isSpace (')' :: r) := ends_cons.mpr CharClass.isSpace_paren
      rw [Expression.source, List.cons_append, List.append_assoc] at hc
      have hin := Cursor.rest_skipSpace (Cursor.rest_advance (s := ['(']) hc)
        (Call.ends_isSpace h _)
      obtain ⟨call', d, hread, hd, he⟩ := Call.readsBack call h .paren _ hin
      have hclose : d.skipSpace.rest = Token.subClose ++ r :=
        Cursor.rest_skipSpace (hd.trans (dropWhile_of_ends hend)) hend
      refine ⟨_, _, .sub hc hread (Cursor.startsWith_of_rest hclose),
        Cursor.rest_advance hclose, ?_⟩
      rw [Expression.eraseSpans, Expression.eraseSpans, he]
theorem Call.readsBack : (call : Call) → {withParams : Bool} →
    call.isPrintable withParams = true → {r : List Char} → ClosesCall withParams r →
    CallReadsBack call r
  | ⟨callee, params, hash⟩, withParams, h, r, hr => by
      intro c hc
      simp only [Call.isPrintable, Bool.and_eq_true, Bool.not_eq_true'] at h
      obtain ⟨⟨⟨hcallee, has⟩, hparams⟩, hhash⟩ := h
      have hends := endsWord_arguments params hash hr.endsWord
      have hblank : callee.isWord "as" = true →
          ∀ x ∈ (paramsSource params ++ (hashSource hash ++ r)).head?, x ≠ ' ' := by
        intro hword
        rw [hword, Bool.true_and, Bool.or_right_comm] at has
        exact arguments_no_blank hr has
      rw [Call.source, List.append_assoc, List.append_assoc] at hc
      obtain ⟨callee', d, hread, hd, he⟩ := Expression.readsBack hcallee hends c hc
      obtain ⟨params', hash', d', hargs, hd', hep, heh⟩ :=
        argumentsReadBack params hparams hr (hashReadsBack hash hhash hr) d hd
      refine ⟨_, d', .call ?_ hread hargs, hd', ?_⟩
      · rw [hc]
        exact Expression.endsCall_source hcallee hends hblank
      · rw [Call.eraseSpans, Call.eraseSpans, he, hep, heh]
theorem argumentsReadBack : (params : List Expression) → {hash : List (String × Expression)} →
    {withParams : Bool} → paramsPrintable params (withParams || !hash.isEmpty) = true →
    {r : List Char} → ClosesCall withParams r → HashReadsBack hash r →
    ArgumentsReadBack params hash r
  | [], hash, withParams, _, r, _, hhash => by
      intro c hc
      obtain ⟨hash', d, hread, hd, he⟩ := hhash false c hc
      exact ⟨[], hash', d, hread, hd, rfl, he⟩
  | e :: es, hash, withParams, h, r, hr, hhash => by
      intro c hc
      simp only [paramsPrintable, Bool.and_eq_true, Bool.not_eq_true'] at h
      obtain ⟨⟨he, has⟩, hes⟩ := h
      have hends := endsWord_arguments es hash hr.endsWord
      have hblank : e.isWord "as" = true →
          ∀ x ∈ (paramsSource es ++ (hashSource hash ++ r)).head?, x ≠ ' ' := by
        intro hword
        rw [hword, Bool.true_and] at has
        exact arguments_no_blank hr has
      rw [paramsSource, List.cons_append, List.append_assoc] at hc
      have hrest := Cursor.rest_skipSpace_of_blank hc (Expression.ends_isSpace he _)
      obtain ⟨e', d, hread, hd, hee⟩ := Expression.readsBack he hends c.skipSpace hrest
      obtain ⟨es', hash', d', hargs, hd', hep, heh⟩ := argumentsReadBack es hes hr hhash d hd
      refine ⟨e' :: es', hash', d', .positional ?_ ?_ hread hargs, hd', ?_, heh⟩
      · rw [hrest]
        exact Expression.endsCall_source he hends hblank
      · rw [hrest]
        exact Expression.argumentName?_source he hends
      · rw [eraseParamsSpans, eraseParamsSpans, hee, hep]
theorem hashReadsBack : (hash : List (String × Expression)) → hashPrintable hash = true →
    {withParams : Bool} → {r : List Char} → ClosesCall withParams r → HashReadsBack hash r
  | [], _, withParams, r, hr => by
      intro named c hc
      have hd : c.skipSpace.rest = r.dropWhile CharClass.isSpace :=
        congrArg (List.dropWhile CharClass.isSpace) hc
      exact ⟨[], _, .done (hd ▸ hr.endsCall), hd, rfl⟩
  | (key, e) :: hash, h, withParams, r, hr => by
      intro named c hc
      simp only [hashPrintable, Bool.and_eq_true] at h
      obtain ⟨⟨hkey, he⟩, hhash⟩ := h
      have hends := endsWord_hash hash hr.endsWord
      simp only [hashSource, List.cons_append, List.append_assoc] at hc
      obtain ⟨hspace, hcall, hname⟩ :=
        Token.argumentName?_append (e.source ++ (hashSource hash ++ r)) hkey
      have hrest := Cursor.rest_skipSpace_of_blank hc hspace
      have hvalue := rest_behindName hrest (Expression.ends_isSpace he _)
      obtain ⟨e', d, hread, hd, hee⟩ := Expression.readsBack he hends _ hvalue
      obtain ⟨hash', d', hargs, hd', heh⟩ := hashReadsBack hash hhash hr true d hd
      refine ⟨(key, e') :: hash', d', ?_, hd', ?_⟩
      · have hstep : ReadsArguments c named [] ((String.ofList key.toList, e') :: hash') d' :=
          .named (hrest ▸ hcall) (hrest ▸ hname) hread hargs
        rwa [String.ofList_toList] at hstep
      · rw [eraseHashSpans, eraseHashSpans, hee, heh]
end

end Bracework
