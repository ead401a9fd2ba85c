/-
Reading — what was read stays read when a source goes on.

A reader looks ahead: a run of characters goes on while they are of a class, and
a delimiter that is not there might be begun.  What it has found still stands
where the source goes on behind its end, provided that the reader did not go to
the very end.  All that is closed by a delimiter is safe, for the delimiter is
what the reader looked at last; only a text may go on.
-/
import Bracework.Proofs.Canonical.Reading
import Bracework.Proofs.Reading.Progress

namespace Bracework

open Reading

/-! ## Lookahead -/

namespace Token

/-- A text that is as long as a delimiter shows whether it begins with it. -/
theorem isPrefixOf_append_of_length_le (mark : List Char) {cs : List Char}
    (h : mark.length ≤ cs.length) (r : List Char) :
    mark.isPrefixOf (cs ++ r) = mark.isPrefixOf cs := by
  rw [Bool.eq_iff_iff, List.isPrefixOf_iff_prefix, List.isPrefixOf_iff_prefix]
  have hcs := List.prefix_append cs r
  exact ⟨fun hp => List.prefix_of_prefix_length_le hp hcs h, fun hp => hp.trans hcs⟩

/-- So does a text that holds a character which is not in the delimiter. -/
theorem isPrefixOf_append_of_mem {mark cs : List Char} {x : Char} (hx : x ∈ cs) (hn : x ∉ mark)
    (r : List Char) : mark.isPrefixOf (cs ++ r) = mark.isPrefixOf cs := by
  rcases Nat.le_total mark.length cs.length with h | h
  · exact isPrefixOf_append_of_length_le mark h r
  · have hfalse (text : List Char) (htext : cs <+: text) : mark.isPrefixOf text = false := by
      refine Bool.eq_false_iff.mpr fun hp => hn ?_
      have hmark := List.isPrefixOf_iff_prefix.mp hp
      exact (List.prefix_of_prefix_length_le htext hmark h).mem hx
    rw [hfalse _ (List.prefix_append cs r), hfalse _ List.prefix_rfl]

/-- What ends a call is a brace, a parenthesis, or the word that introduces block parameters. -/
theorem endsCall_cases {cs : List Char} (h : endsCall cs = true) (hne : cs ≠ []) :
    (∃ rest, cs = '}' :: '}' :: rest) ∨ (∃ rest, cs = ')' :: rest) ∨
      ∃ x rest, cs = 'a' :: 's' :: x :: rest ∧ (CharClass.isSpace x || x == '|') = true := by
  simp only [endsCall, Bool.or_eq_true, Bool.and_eq_true] at h
  rcases h with ((h | h) | h) | ⟨h, hx⟩
  · exact absurd (List.isEmpty_iff.mp h) hne
  · obtain ⟨rest, rfl⟩ := List.isPrefixOf_iff_prefix.mp h
    exact .inl ⟨rest, rfl⟩
  · obtain ⟨rest, rfl⟩ := List.isPrefixOf_iff_prefix.mp h
    exact .inr (.inl ⟨rest, rfl⟩)
  · obtain ⟨rest, rfl⟩ := List.isPrefixOf_iff_prefix.mp h
    cases rest with
    | nil => cases hx
    | cons x rest => exact .inr (.inr ⟨x, rest, rfl, by simpa [paramsOpen] using hx⟩)

theorem endsCall_append {cs : List Char} (h : endsCall cs = true) (hne : cs ≠ [])
    (r : List Char) : endsCall (cs ++ r) = true := by
  rcases endsCall_cases h hne with ⟨rest, rfl⟩ | ⟨rest, rfl⟩ | ⟨x, rest, rfl, -⟩
  · rfl
  · rfl
  · exact h

/-- In front of what ends it, a call that does not end here does not do so when more follows. -/
theorem endsCall_append_eq_false {before cs : List Char} (hcs : endsCall cs = true)
    (hne : cs ≠ []) (h : endsCall (before ++ cs) = false) (r : List Char) :
    endsCall (before ++ cs ++ r) = false := by
  rcases before with _ | ⟨a, _ | ⟨b, before⟩⟩
  · rw [List.nil_append, hcs] at h
    cases h
  · rcases endsCall_cases hcs hne with ⟨rest, rfl⟩ | ⟨rest, rfl⟩ | ⟨x, rest, rfl, -⟩
    · exact h
    · simpa [endsCall, mustacheClose, subClose, paramsOpen, List.isPrefixOf] using h
    · exact h
  · obtain ⟨x, rest, rfl⟩ := List.exists_cons_of_ne_nil hne
    cases before <;> exact h

/-- Where a call ends stands a character that is in no name. -/
theorem exists_not_isNameChar {cs : List Char} (h : endsCall cs = true) (hne : cs ≠ []) :
    ∃ x ∈ cs, isNameChar x = false := by
  rcases endsCall_cases h hne with ⟨rest, rfl⟩ | ⟨rest, rfl⟩ | ⟨x, rest, rfl, hx⟩
  · exact ⟨'}', by simp, by decide⟩
  · exact ⟨')', by simp, by decide⟩
  · refine ⟨x, by simp, Bool.eq_false_iff.mpr fun hname => ?_⟩
    rcases (Bool.or_eq_true _ _).mp hx with hspace | hbar
    · have hpath := isSpace_of_isPathChar (isPathChar_of_isNameChar hname)
      rw [hspace] at hpath
      cases hpath
    · obtain rfl := beq_iff_eq.mp hbar
      exact absurd hname (by decide)

end Token

theorem takeWhile_append_of_dropWhile {test : Char → Bool} {cs : List Char}
    (h : cs.dropWhile test ≠ []) (r : List Char) :
    (cs ++ r).takeWhile test = cs.takeWhile test ∧
      (cs ++ r).dropWhile test = cs.dropWhile test ++ r := by
  have hall : ∀ x ∈ cs.takeWhile test, test x = true := fun x hx => List.mem_takeWhile_imp hx
  have hends : Ends test (cs.dropWhile test ++ r) := by
    obtain ⟨x, rest, hx⟩ := List.exists_cons_of_ne_nil h
    have hnot := ends_dropWhile test cs
    rw [hx] at hnot ⊢
    exact hnot
  have htake := takeWhile_append_of_ends hall hends
  have hdrop := dropWhile_append_of_ends hall hends
  rw [← List.append_assoc, List.takeWhile_append_dropWhile] at htake hdrop
  exact ⟨htake, hdrop⟩

theorem Token.argumentName?_append_of_mem {cs : List Char} {x : Char} (hx : x ∈ cs)
    (hn : isNameChar x = false) (r : List Char) : argumentName? (cs ++ r) = argumentName? cs := by
  have hdrop : cs.dropWhile isNameChar ≠ [] := by
    rw [Ne, List.dropWhile_eq_nil_iff]
    intro hall
    rw [hall x hx] at hn
    cases hn
  obtain ⟨htake, hrest⟩ := takeWhile_append_of_dropWhile hdrop r
  have hequals := isPrefixOf_append_of_length_le equals (List.length_pos_iff.mpr hdrop) r
  unfold argumentName?
  dsimp only
  rw [drop_length_takeWhile, drop_length_takeWhile, htake, hrest, hequals]

/-- The first delimiter in a text is the first one also when the text goes on. -/
theorem splitAtFirst?_append_right {mark text before after : List Char}
    (h : splitAtFirst? mark text = some (before, after)) (hne : mark ≠ []) (r : List Char) :
    splitAtFirst? mark (text ++ r) = some (before, after ++ r) := by
  induction text generalizing before with
  | nil =>
      rw [splitAtFirst?, if_neg hne] at h
      cases h
  | cons c cs ih =>
      have hlength : mark.length ≤ (c :: cs).length := by
        rw [append_of_splitAtFirst? h]
        simp only [List.length_append]
        omega
      have hprefix := Token.isPrefixOf_append_of_length_le _ hlength r
      rw [List.cons_append] at hprefix
      rw [splitAtFirst?] at h
      rw [List.cons_append, splitAtFirst?, hprefix]
      split at h
      case isTrue hp =>
        obtain ⟨rfl, rfl⟩ := Prod.mk.inj (Option.some.inj h)
        rw [if_pos hp, ← List.cons_append, List.drop_append_of_le_length hlength]
      case isFalse hp =>
        obtain ⟨⟨b, a⟩, hba, heq⟩ := Option.map_eq_some_iff.mp h
        obtain ⟨rfl, rfl⟩ := Prod.mk.inj heq
        rw [if_neg hp, ih hba]
        rfl

/-! ## Scanning -/

namespace Token

/-- A test that, where it does not hold in front of what makes it hold, does not do so when more
follows. -/
def Settles (ahead : List Char → Bool) : Prop :=
  ∀ s rest r, s ≠ [] → ahead rest = true → ahead (s ++ rest) = false →
    ahead (s ++ rest ++ r) = false

/-- A text that was scanned up to a mark is scanned alike when more follows. -/
theorem upTo_append {ahead : List Char → Bool} (hp : Persists ahead) (hs : Settles ahead)
    {cs : List Char} (h : cs.drop (upTo ahead cs).length ≠ []) (r : List Char) :
    upTo ahead (cs ++ r) = upTo ahead cs := by
  induction cs with
  | nil => exact absurd List.drop_nil h
  | cons c cs ih =>
      rw [upTo] at h ⊢
      rw [List.cons_append, upTo]
      split at h
      case isTrue hc =>
        have hlater : ahead (c :: (cs ++ r)) = true := hp (c :: cs) r hc
        rw [if_pos hc, if_pos hlater]
      case isFalse hc =>
        obtain ⟨rest, heq, hstops⟩ := stops_upTo ahead cs
        have hrest : cs.drop (upTo ahead cs).length = rest :=
          (congrArg (List.drop _) heq).trans List.drop_left
        have hahead := hstops.behind.resolve_left fun hnil => h (hrest.trans hnil)
        have hfalse := Bool.eq_false_iff.mpr hc
        rw [heq] at hfalse
        have hlater := hs (c :: upTo ahead cs) rest r (List.cons_ne_nil _ _) hahead hfalse
        rw [List.cons_append, List.cons_append, ← heq] at hlater
        rw [if_neg hc, if_neg (by rw [hlater]; decide), ih h]

theorem persists_endsPart (quote : Char) : Persists (endsPart quote) := by
  intro s r h
  simp only [endsPart, Bool.or_eq_true, beq_iff_eq] at h ⊢
  refine h.imp (fun hhead => ?_) (persists_isPrefixOf _ s r)
  obtain ⟨after, rfl⟩ := List.head?_eq_some_iff.mp hhead
  rfl

theorem two_le_length {s rest : List Char} (hs : s ≠ []) (hrest : rest ≠ []) :
    2 ≤ (s ++ rest).length := by
  have hpos := List.length_pos_iff.mpr hs
  have hpos' := List.length_pos_iff.mpr hrest
  rw [List.length_append]
  omega

theorem settles_endsPart (quote : Char) : Settles (endsPart quote) := by
  intro s rest r hs hrest h
  have hne : rest ≠ [] := by
    rintro rfl
    cases hrest
  have hopen := isPrefixOf_append_of_length_le mustacheOpen (two_le_length hs hne) r
  obtain ⟨x, s, rfl⟩ := List.exists_cons_of_ne_nil hs
  rw [endsPart, hopen]
  exact h

theorem startsTag_append_of_length_le {cs : List Char} (h : 2 ≤ cs.length) (r : List Char) :
    startsTag (cs ++ r) = startsTag cs := by
  match cs, h with
  | x :: y :: cs, _ =>
      rw [startsTag_cons]
      exact startsTag_cons x y (cs ++ r)

theorem settles_startsMark : Settles startsMark := by
  intro s rest r hs hrest h
  obtain ⟨x, xs, rfl, hx⟩ := startsMark_head hrest
  have htwo := two_le_length hs (List.cons_ne_nil x xs)
  have hopen := isPrefixOf_append_of_length_le mustacheOpen htwo r
  have htag := startsTag_append_of_length_le htwo r
  simp only [startsMark, Bool.or_eq_false_iff] at h
  have hcomment : commentOpen.isPrefixOf s = false := by
    refine Bool.eq_false_iff.mpr fun hp => ?_
    rw [persists_isPrefixOf _ s (x :: xs) hp] at h
    cases h.2
  have hcomment := commentOpen_append (r := x :: xs ++ r) hs hcomment
    (by simpa using hx)
  rw [startsMark, hopen, htag, h.1.1, h.1.2, List.append_assoc, hcomment]
  rfl

/-- A text that holds the end of some delimiter shows whether it begins with an else mark. -/
theorem startsElse_append_of_mem {cs : List Char} {x : Char} (hx : x ∈ cs) (hn : x ∉ elseOpen)
    (r : List Char) : startsElse (cs ++ r) = startsElse cs := by
  rw [startsElse, startsElse, isPrefixOf_append_of_mem hx hn]
  cases hp : elseOpen.isPrefixOf cs with
  | false => rfl
  | true =>
      obtain ⟨after, rfl⟩ := List.isPrefixOf_iff_prefix.mp hp
      have hafter := (List.mem_append.mp hx).resolve_left hn
      obtain ⟨y, after, rfl⟩ := List.exists_cons_of_ne_nil (List.ne_nil_of_mem hafter)
      rfl

theorem startsTag_append_of_mem {cs : List Char} {x : Char} (hx : x ∈ cs) (hn : x ≠ '<')
    (r : List Char) : startsTag (cs ++ r) = startsTag cs := by
  rcases Nat.lt_or_ge cs.length 2 with h | h
  · obtain ⟨y, rfl⟩ : ∃ y, cs = [y] :=
      List.length_eq_one_iff.mp (by have := List.length_pos_of_mem hx; omega)
    obtain rfl := List.mem_singleton.mp hx
    cases r with
    | nil => rfl
    | cons z r =>
        refine (startsTag_cons x z r).trans ?_
        rw [beq_eq_false_iff_ne.mpr hn, Bool.false_and]
        simp [startsTag]
  · exact startsTag_append_of_length_le h r

end Token

/-- Whether a character ends delimiters, and is in no mark. -/
def Token.IsCloser (x : Char) : Prop := x = '}' ∨ x = '>'

/-- A text that holds the end of what its mark opens has the same mark when it goes on. -/
theorem Mark.of_append {cs : List Char} {x : Char} (hx : x ∈ cs) (hc : Token.IsCloser x)
    (r : List Char) : Mark.of (cs ++ r) = Mark.of cs := by
  have hprefix (mark : List Char) (h : '}' ∉ mark ∧ '>' ∉ mark) :
      mark.isPrefixOf (cs ++ r) = mark.isPrefixOf cs := by
    refine Token.isPrefixOf_append_of_mem hx ?_ r
    rcases hc with rfl | rfl
    · exact h.1
    · exact h.2
  have helse : Token.startsElse (cs ++ r) = Token.startsElse cs := by
    refine Token.startsElse_append_of_mem hx ?_ r
    rcases hc with rfl | rfl <;> decide
  have htag : Token.startsTag (cs ++ r) = Token.startsTag cs := by
    refine Token.startsTag_append_of_mem hx ?_ r
    rcases hc with rfl | rfl <;> decide
  rw [of, of, hprefix _ (by decide), hprefix _ (by decide), helse, hprefix _ (by decide),
    hprefix _ (by decide), hprefix _ (by decide), hprefix _ (by decide), hprefix _ (by decide),
    htag]

/-! ## Places -/

namespace Cursor

/-- The same place in a source that goes on with another text. -/
def followedBy (c : Cursor) (r : List Char) : Cursor := ⟨c.rest ++ r, c.offset⟩

variable {c d : Cursor} (r : List Char)

theorem rest_followedBy {first : Char} {others : List Char} (h : c.rest = first :: others) :
    (c.followedBy r).rest = first :: (others ++ r) :=
  congrArg (· ++ r) h

theorem advance_followedBy {count : Nat} (h : count ≤ c.left) :
    (c.followedBy r).advance count = (c.advance count).followedBy r := by
  rw [advance, advance, followedBy, followedBy, List.drop_append_of_le_length h,
    List.take_append_of_le_length h]

theorem startsWith_followedBy {token : List Char} (h : c.startsWith token = true) :
    (c.followedBy r).startsWith token = true :=
  Token.persists_isPrefixOf token c.rest r h

theorem not_startsWith_followedBy {token : List Char} (h : c.startsWith token = false)
    (hlength : token.length ≤ c.left) : (c.followedBy r).startsWith token = false :=
  (Token.isPrefixOf_append_of_length_le _ hlength r).trans h

theorem advance_token_followedBy {token : List Char} (h : c.startsWith token = true) :
    (c.followedBy r).advance token.length = (c.advance token.length).followedBy r :=
  advance_followedBy r (left_pos_of_startsWith h)

theorem taken_followedBy {test : Char → Bool} (h : (c.skip test).rest ≠ []) :
    (c.followedBy r).taken test = c.taken test :=
  (takeWhile_append_of_dropWhile h r).1

theorem skip_followedBy {test : Char → Bool} (h : (c.skip test).rest ≠ []) :
    (c.followedBy r).skip test = (c.skip test).followedBy r := by
  obtain ⟨htake, hdrop⟩ := takeWhile_append_of_dropWhile h r
  rw [skip, skip, followedBy, followedBy, htake, hdrop]

theorem skipSpace_followedBy (h : c.skipSpace.rest ≠ []) :
    (c.followedBy r).skipSpace = c.skipSpace.followedBy r :=
  skip_followedBy r h

theorem rest_ne_nil_of_startsWith {token : List Char} (hne : token ≠ [])
    (h : c.startsWith token = true) : c.rest ≠ [] := by
  obtain ⟨first, token, rfl⟩ := List.exists_cons_of_ne_nil hne
  obtain ⟨others, hrest⟩ := rest_of_startsWith h
  rw [hrest]
  exact List.cons_ne_nil _ _

theorem mem_rest_of_startsWith {token : List Char} {x : Char} (hx : x ∈ token)
    (h : c.startsWith token = true) : x ∈ c.rest :=
  (List.isPrefixOf_iff_prefix.mp h).mem hx

theorem le_left_of_advance {count : Nat} (h : (c.advance count).rest ≠ []) : count ≤ c.left := by
  refine Nat.le_of_lt (Nat.lt_of_not_le fun hle => h ?_)
  exact List.drop_eq_nil_of_le hle

theorem Reaches.rest_ne_nil (h : c.Reaches d) (hd : d.rest ≠ []) : c.rest ≠ [] := by
  obtain ⟨text, hrest, -⟩ := h
  rw [hrest]
  exact List.append_ne_nil_of_right_ne_nil text hd

theorem reaches_beyond (c : Cursor) (count : Nat) : c.Reaches (c.advance count).skipSpace :=
  (c.reaches_advance count).trans (reaches_skipSpace _)

/-- Some characters and blanks further on is the same place when more follows. -/
theorem beyond_followedBy {count : Nat} (h : (c.advance count).skipSpace.rest ≠ []) :
    ((c.followedBy r).advance count).skipSpace = (c.advance count).skipSpace.followedBy r := by
  have hadvance := le_left_of_advance ((reaches_skipSpace _).rest_ne_nil h)
  rw [advance_followedBy r hadvance, skipSpace_followedBy r h]

/-- A delimiter behind blanks stands there when more follows. -/
theorem spaced_followedBy {token : List Char} (hne : token ≠ [])
    (h : c.skipSpace.startsWith token = true) :
    (c.followedBy r).skipSpace.startsWith token = true ∧
      (c.followedBy r).skipSpace.advance token.length =
        (c.skipSpace.advance token.length).followedBy r := by
  rw [skipSpace_followedBy r (rest_ne_nil_of_startsWith hne h)]
  exact ⟨startsWith_followedBy r h, advance_token_followedBy r h⟩

/-- So does a delimiter behind a name and blanks, and the name is the same. -/
theorem named_followedBy {test : Char → Bool} {token : List Char} (hne : token ≠ [])
    (h : (c.skip test).skipSpace.startsWith token = true) :
    (c.followedBy r).taken test = c.taken test ∧
      ((c.followedBy r).skip test).skipSpace.startsWith token = true ∧
      ((c.followedBy r).skip test).skipSpace.advance token.length =
        ((c.skip test).skipSpace.advance token.length).followedBy r := by
  have hname := (reaches_skipSpace _).rest_ne_nil (rest_ne_nil_of_startsWith hne h)
  rw [skip_followedBy r hname]
  exact ⟨taken_followedBy r hname, spaced_followedBy r hne h⟩

theorem Reaches.mem_rest {x : Char} (h : c.Reaches d) (hx : x ∈ d.rest) : x ∈ c.rest := by
  obtain ⟨text, hrest, -⟩ := h
  rw [hrest]
  exact List.mem_append_right text hx

end Cursor

open Cursor

namespace Reading

variable (r : List Char)

/-! ## Expressions and calls -/

theorem startsNumeral_append_right {cs : List Char} (h : 2 ≤ cs.length) :
    startsNumeral (cs ++ r) = startsNumeral cs := by
  match cs, h with
  | x :: y :: cs, _ =>
      by_cases hx : x = '-'
      · subst hx
        rfl
      · simp [startsNumeral, hx]

theorem ReadsArguments.endsCall {c d : Cursor} {named : Bool} {params : List Expression}
    {hash : List (String × Expression)} (h : ReadsArguments c named params hash d) :
    Token.endsCall d.rest = true := by
  -- the derivations are mutual, so the arguments are counted down
  induction hcount : params.length + hash.length generalizing c named params hash with
  | zero =>
      obtain ⟨hparams, hhash⟩ := Nat.add_eq_zero_iff.mp hcount
      obtain rfl := List.eq_nil_of_length_eq_zero hparams
      obtain rfl := List.eq_nil_of_length_eq_zero hhash
      cases h with
      | done hends => exact hends
  | succ count ih =>
      cases h with
      | done hends => exact hends
      | named _ _ _ ha => exact ih ha (Nat.succ.inj hcount)
      | positional _ _ _ ha => exact ih ha (Nat.succ.inj ((Nat.succ_add _ _).symm.trans hcount))

/-- In front of arguments, a call does not end when more follows. -/
theorem ReadsArguments.not_endsCall {b c d : Cursor} {named : Bool} {params : List Expression}
    {hash : List (String × Expression)} (h : ReadsArguments c named params hash d)
    (hb : b.Reaches c) (hcall : Token.endsCall b.rest = false) (hd : d.rest ≠ []) :
    Token.endsCall (b.followedBy r).rest = false := by
  obtain ⟨text, hrest, -⟩ := hb.trans h.reaches
  rw [followedBy, hrest]
  rw [hrest] at hcall
  exact Token.endsCall_append_eq_false h.endsCall hd hcall r

theorem ReadsArguments.argumentName?_eq {b c d : Cursor} {named : Bool} {params : List Expression}
    {hash : List (String × Expression)} (h : ReadsArguments c named params hash d)
    (hb : b.Reaches c) (hd : d.rest ≠ []) :
    Token.argumentName? (b.followedBy r).rest = Token.argumentName? b.rest := by
  obtain ⟨text, hrest, -⟩ := hb.trans h.reaches
  obtain ⟨x, hx, hname⟩ := Token.exists_not_isNameChar h.endsCall hd
  exact Token.argumentName?_append_of_mem (hrest ▸ List.mem_append_right text hx) hname r

theorem behindName_followedBy {c : Cursor} {name : List Char} (h : (behindName c name).rest ≠ []) :
    behindName (c.followedBy r) name = (behindName c name).followedBy r :=
  beyond_followedBy r h

mutual
theorem ReadsExpression.followedBy {c d : Cursor} {e : Expression} :
    ReadsExpression c e d → d.rest ≠ [] → ReadsExpression (c.followedBy r) e (d.followedBy r)
  | @ReadsExpression.sub c d others inner hc hi hclose, hd => by
      have hafter := rest_ne_nil_of_startsWith (by decide) hclose
      have hend := d.reaches_skipSpace.rest_ne_nil hafter
      have hopen := hi.reaches.rest_ne_nil hend
      have hin := hi.followedBy hend
      rw [← beyond_followedBy r hopen] at hin
      obtain ⟨hstill, hbehind⟩ := spaced_followedBy r (by decide) hclose
      have hread := ReadsExpression.sub (rest_followedBy r hc) hin hstill
      rw [hbehind] at hread
      exact hread
  | .string hc hq hs, _ =>
      .string (rest_followedBy r hc) hq (splitAtFirst?_append_right hs (List.cons_ne_nil _ _) r)
  | @ReadsExpression.numeral c first others value hc hn hv, hd => by
      obtain ⟨htake, hdrop⟩ := takeWhile_append_of_dropWhile hd r
      have hothers : 0 < others.length :=
        List.length_pos_iff.mpr fun h => hd (by rw [h]; rfl)
      have hstarts := @startsNumeral_append_right r (first :: others) (Nat.succ_le_succ hothers)
      rw [← htake] at hv
      have hread := ReadsExpression.numeral (rest_followedBy r hc) (hstarts.trans hn) hv
      rw [htake, hdrop] at hread
      exact hread
  | @ReadsExpression.word c first others hc hn hp, hd => by
      have hothers : 0 < others.length := by
        refine List.length_pos_iff.mpr fun h => hd ?_
        rw [Cursor.skip, hc, h, List.dropWhile_cons, if_pos hp]
        rfl
      have hstarts := @startsNumeral_append_right r (first :: others) (Nat.succ_le_succ hothers)
      have hread := ReadsExpression.word (rest_followedBy r hc) (hstarts.trans hn) hp
      rw [skip_followedBy r hd, taken_followedBy r hd] at hread
      exact hread
theorem ReadsCall.followedBy {c d : Cursor} {call : Call} :
    ReadsCall c call d → d.rest ≠ [] → ReadsCall (c.followedBy r) call (d.followedBy r)
  | .call hc he ha, hd =>
      .call (ha.not_endsCall r he.reaches hc hd) (he.followedBy (ha.reaches.rest_ne_nil hd))
        (ha.followedBy hd)
theorem ReadsArguments.followedBy {c d : Cursor} {named : Bool} {params : List Expression}
    {hash : List (String × Expression)} :
    ReadsArguments c named params hash d → d.rest ≠ [] →
      ReadsArguments (c.followedBy r) named params hash (d.followedBy r)
  | .done (c := c) h, hd => by
      have hskip := skipSpace_followedBy r hd
      rw [← hskip]
      refine .done ?_
      rw [hskip]
      exact Token.endsCall_append h hd r
  | .named (c := c) hc hname hv ha, hd => by
      have hvalue := ha.reaches.rest_ne_nil hd
      have hbehind := hv.reaches.rest_ne_nil hvalue
      have hreaches := (reaches_beyond c.skipSpace _).trans hv.reaches
      have hskip := skipSpace_followedBy r (hreaches.rest_ne_nil hvalue)
      have hends := ha.not_endsCall r hreaches hc hd
      have hsome := ha.argumentName?_eq r hreaches hd
      have hread := hv.followedBy hvalue
      rw [← behindName_followedBy r hbehind] at hread
      rw [← hskip] at hends hsome hread
      exact .named hends (hsome.trans hname) hread (ha.followedBy hd)
  | .positional (c := c) hc hname hv ha, hd => by
      have hvalue := ha.reaches.rest_ne_nil hd
      have hskip := skipSpace_followedBy r (hv.reaches.rest_ne_nil hvalue)
      have hends := ha.not_endsCall r hv.reaches hc hd
      have hnone := ha.argumentName?_eq r hv.reaches hd
      rw [← hskip] at hends hnone
      have hread := hv.followedBy hvalue
      rw [← hskip] at hread
      exact .positional hends (hnone.trans hname) hread (ha.followedBy hd)
end

/-! ## Mustaches and block heads -/

theorem ReadsMustache.followedBy {c d : Cursor} {m : Mustache} (h : ReadsMustache c m d) :
    ReadsMustache (c.followedBy r) m (d.followedBy r) := by
  cases h with
  | @mustache d trusting inner ht ho hc hclose =>
      have hne : Mustache.closing trusting ≠ [] := by cases trusting <;> decide
      have hafter := rest_ne_nil_of_startsWith hne hclose
      have hend := d.reaches_skipSpace.rest_ne_nil hafter
      have hopen := hc.reaches.rest_ne_nil hend
      have htrusting : (c.followedBy r).startsWith Token.trustingOpen = trusting := by
        cases trusting with
        | true => exact startsWith_followedBy r ht
        | false =>
            -- Two delimiters of two characters are longer than the one that is not there.
            have hbetween := ((reaches_skipSpace _).trans hc.reaches).left_le
            have hspace := d.left_skipSpace_le
            have hlength := left_pos_of_startsWith hclose
            have hfour : 4 ≤ c.left := by
              rw [left_advance] at hbetween
              simp only [Mustache.opening, Mustache.closing, Token.mustacheOpen,
                Token.mustacheClose, Bool.false_eq_true, if_false, List.length_cons,
                List.length_nil] at hbetween hlength
              omega
            exact not_startsWith_followedBy r ht (Nat.le_of_succ_le hfour)
      have hcall := hc.followedBy r hend
      rw [← beyond_followedBy r hopen] at hcall
      obtain ⟨hstill, hbehind⟩ := spaced_followedBy r hne hclose
      have hread := ReadsMustache.mustache htrusting (startsWith_followedBy r ho) hcall hstill
      rw [hbehind] at hread
      exact hread

theorem rest_ne_nil_of_taken {c : Cursor} {test : Char → Bool} (h : c.taken test ≠ []) :
    c.rest ≠ [] := by
  intro hnil
  rw [taken, hnil] at h
  exact h rfl

theorem ReadsNames.rest_ne_nil {c d : Cursor} {names : List String} (h : ReadsNames c names d) :
    c.rest ≠ [] := by
  cases h with
  | bar hbar => exact c.reaches_skipSpace.rest_ne_nil (rest_ne_nil_of_startsWith (by decide) hbar)
  | name _ hname _ => exact c.reaches_skipSpace.rest_ne_nil (rest_ne_nil_of_taken hname)

theorem ReadsNames.followedBy {c d : Cursor} {names : List String} (h : ReadsNames c names d) :
    ReadsNames (c.followedBy r) names (d.followedBy r) := by
  induction h with
  | @bar c hbar =>
      obtain ⟨hstill, hbehind⟩ := spaced_followedBy r (by decide) hbar
      exact hbehind ▸ ReadsNames.bar hstill
  | @name c d names hbar hname hnames ih =>
      have hne := rest_ne_nil_of_taken hname
      have hbehind := hnames.rest_ne_nil
      have hskip := skipSpace_followedBy r hne
      have hnot := not_startsWith_followedBy r hbar (List.length_pos_iff.mpr hne)
      have htaken := taken_followedBy r hbehind
      rw [← skip_followedBy r hbehind, ← hskip] at ih
      rw [← hskip] at hnot htaken
      have hread := ReadsNames.name hnot (by rwa [htaken]) ih
      rw [htaken] at hread
      exact hread

/-- In front of what closes a mustache, block parameters stand or do not stand whatever follows. -/
theorem ReadsBlockParams.followedBy {c d : Cursor} {names : List String}
    (h : ReadsBlockParams c names d) (hd : d.startsWith Token.mustacheClose = true) :
    ReadsBlockParams (c.followedBy r) names (d.followedBy r) := by
  cases h with
  | some has hbar hnames =>
      have hopen := beyond_followedBy r (rest_ne_nil_of_startsWith (by decide) hbar)
      have hend := skipSpace_followedBy r (rest_ne_nil_of_startsWith (by decide) hd)
      have hstill := startsWith_followedBy r hbar
      have hread := hnames.followedBy r
      rw [← advance_token_followedBy r hbar] at hread
      rw [← hopen] at hstill hread
      rw [← hend]
      exact .some (startsWith_followedBy r has) hstill hread
  | none has =>
      have htwo : 2 ≤ c.left := left_pos_of_startsWith hd
      exact .none (not_startsWith_followedBy r has htwo)

theorem ReadsBlockHead.followedBy {c d : Cursor} {start : Nat} {head : BlockHead}
    (h : ReadsBlockHead c start head d) (hd : d.startsWith Token.mustacheClose = true) :
    ReadsBlockHead (c.followedBy r) start head (d.followedBy r) := by
  cases h with
  | head hc hp =>
      have hspace := hp.reaches.rest_ne_nil (rest_ne_nil_of_startsWith (by decide) hd)
      have hparams := hp.followedBy r hd
      rw [← skipSpace_followedBy r hspace] at hparams
      exact .head (hc.followedBy r ((reaches_skipSpace _).rest_ne_nil hspace)) hparams

/-! ## Opening tags -/

theorem partText_followedBy {quote : Char} {c : Cursor} (h : (behindText quote c).rest ≠ []) :
    partText quote (c.followedBy r).rest = partText quote c.rest := by
  rw [Token.partText_eq, Token.partText_eq]
  rw [behindText, Token.partText_eq] at h
  exact Token.upTo_append (Token.persists_endsPart quote) (Token.settles_endsPart quote) h r

theorem behindText_followedBy {quote : Char} {c : Cursor} (h : (behindText quote c).rest ≠ []) :
    behindText quote (c.followedBy r) = (behindText quote c).followedBy r := by
  rw [behindText, partText_followedBy r h, advance_followedBy r (le_left_of_advance h), behindText]

theorem frontPart_followedBy {quote : Char} {c : Cursor} (h : (behindText quote c).rest ≠ []) :
    frontPart quote (c.followedBy r) = frontPart quote c := by
  rw [frontPart, partText_followedBy r h, behindText_followedBy r h]
  rfl

theorem ReadsParts.followedBy {quote : Char} {c d : Cursor} {pieces : List AttributePart}
    (h : ReadsParts quote c pieces d) :
    ReadsParts quote (c.followedBy r) pieces (d.followedBy r) := by
  induction h with
  | @close c others hq =>
      have hne : (behindText quote c).rest ≠ [] := hq ▸ List.cons_ne_nil quote others
      have hrest : (behindText quote (c.followedBy r)).rest = quote :: (others ++ r) := by
        rw [behindText_followedBy r hne, rest_followedBy r hq]
      have hread := ReadsParts.close hrest
      rw [frontPart_followedBy r hne, behindText_followedBy r hne,
        advance_followedBy r (List.length_pos_iff.mpr hne)] at hread
      exact hread
  | @mustache c d e first others m pieces hr hf hm _ ih =>
      have hne : (behindText quote c).rest ≠ [] := hr ▸ List.cons_ne_nil first others
      have hm := hm.followedBy r
      rw [← behindText_followedBy r hne] at hm
      have hrest : (behindText quote (c.followedBy r)).rest = first :: (others ++ r) := by
        rw [behindText_followedBy r hne, rest_followedBy r hr]
      have hread := ReadsParts.mustache hrest hf hm ih
      rw [frontPart_followedBy r hne] at hread
      exact hread

theorem ReadsValue.followedBy {c d : Cursor} {v : AttributeValue} (h : ReadsValue c v d)
    (hd : d.rest ≠ []) : ReadsValue (c.followedBy r) v (d.followedBy r) := by
  cases h with
  | mustache ho hm => exact .mustache (startsWith_followedBy r ho) (hm.followedBy r)
  | quoted ho hr hq hp =>
      have hrest := rest_followedBy r hr
      have hone : 1 ≤ c.left := by
        rw [left, hr]
        exact Nat.succ_pos _
      have hbrace : (c.followedBy r).startsWith Token.mustacheOpen = false := by
        rcases hq with rfl | rfl <;> exact not_startsWith_of_head hrest (by decide)
      have hparts := hp.followedBy r
      rw [← advance_followedBy r hone] at hparts
      exact .quoted hbrace hrest hq hparts
  | bare ho hq =>
      obtain ⟨x, others, hx⟩ := List.exists_cons_of_ne_nil hd
      have hends : Token.endsBareValue x = true := by
        have hends := ends_dropWhile (fun x => !Token.endsBareValue x) c.rest
        rw [show c.rest.dropWhile _ = _ from hx, ends_cons] at hends
        simpa using hends
      have hbrace : x ∉ Token.mustacheOpen := by
        intro hmem
        obtain rfl : x = '{' := by simpa [Token.mustacheOpen] using hmem
        exact absurd hends (by decide)
      have hmem : x ∈ c.rest := (c.reaches_skip _).mem_rest (hx ▸ List.mem_cons_self)
      obtain ⟨y, ys, hy⟩ := List.exists_cons_of_ne_nil (List.ne_nil_of_mem hmem)
      have hread := ReadsValue.bare (c := c.followedBy r)
        ((Token.isPrefixOf_append_of_mem hmem hbrace r).trans ho)
        (by rw [rest_followedBy r hy]; rwa [hy] at hq)
      rw [taken_followedBy r hd, skip_followedBy r hd] at hread
      exact hread

theorem ReadsAttributeTail.followedBy {c d : Cursor} {v : AttributeValue}
    (h : ReadsAttributeTail c v d) (hd : d.rest ≠ []) :
    ReadsAttributeTail (c.followedBy r) v (d.followedBy r) := by
  cases h with
  | value he hv =>
      have hread := hv.followedBy r hd
      rw [← beyond_followedBy r (hv.reaches.rest_ne_nil hd)] at hread
      exact .value (startsWith_followedBy r he) hread
  | empty he => exact .empty (not_startsWith_followedBy r he (List.length_pos_iff.mpr hd))

theorem behindAttributeName_followedBy {c : Cursor} (h : (behindAttributeName c).rest ≠ []) :
    behindAttributeName (c.followedBy r) = (behindAttributeName c).followedBy r := by
  have hname := (reaches_skipSpace _).rest_ne_nil h
  rw [behindAttributeName, skip_followedBy r hname, skipSpace_followedBy r h, behindAttributeName]

theorem ReadsAttribute.followedBy {c d : Cursor} {a : Attribute} (h : ReadsAttribute c a d)
    (hd : d.rest ≠ []) : ReadsAttribute (c.followedBy r) a (d.followedBy r) := by
  cases h with
  | attr hn ht =>
      have hbehind := ht.reaches.rest_ne_nil hd
      have htaken := taken_followedBy r ((reaches_skipSpace _).rest_ne_nil hbehind)
      have htail := ht.followedBy r hd
      rw [← behindAttributeName_followedBy r hbehind] at htail
      have hread := ReadsAttribute.attr (by rwa [htaken]) htail
      rw [htaken] at hread
      exact hread

/-- A tag that was read to its end is closed. -/
theorem ReadsTagBody.mem_close {c d : Cursor} {attributes : List Attribute}
    {modifiers : List Mustache} {selfClosing : Bool}
    (h : ReadsTagBody c attributes modifiers selfClosing d) : '>' ∈ c.rest := by
  induction h with
  | @selfClose c hs => exact c.reaches_skipSpace.mem_rest (mem_rest_of_startsWith (by decide) hs)
  | @close c others hr => exact c.reaches_skipSpace.mem_rest (hr ▸ List.mem_cons_self)
  | @modifier c _ _ _ _ _ _ _ hm _ ih =>
      exact (c.reaches_skipSpace.trans hm.reaches).mem_rest ih
  | @attr c _ _ _ _ _ _ _ _ _ ha _ ih =>
      exact (c.reaches_skipSpace.trans ha.reaches).mem_rest ih

theorem ReadsTagBody.followedBy {c d : Cursor} {attributes : List Attribute}
    {modifiers : List Mustache} {selfClosing : Bool}
    (h : ReadsTagBody c attributes modifiers selfClosing d) :
    ReadsTagBody (c.followedBy r) attributes modifiers selfClosing (d.followedBy r) := by
  induction h with
  | @selfClose c hs =>
      obtain ⟨hstill, hbehind⟩ := spaced_followedBy r (by decide) hs
      exact hbehind ▸ ReadsTagBody.selfClose hstill
  | @close c others hr =>
      have hne : c.skipSpace.rest ≠ [] := hr ▸ List.cons_ne_nil '>' others
      have hskip := skipSpace_followedBy r hne
      have hread := ReadsTagBody.close (hskip ▸ rest_followedBy r hr)
      rw [hskip, advance_followedBy r (List.length_pos_iff.mpr hne)] at hread
      exact hread
  | @modifier c d e m attributes modifiers selfClosing ho hm _ ih =>
      have hskip := skipSpace_followedBy r (rest_ne_nil_of_startsWith (by decide) ho)
      exact .modifier (hskip ▸ startsWith_followedBy r ho) (hskip ▸ hm.followedBy r) ih
  | @attr c d e a attributes modifiers selfClosing hs hclose ho ha hbody ih =>
      have hd := List.ne_nil_of_mem hbody.mem_close
      have htwo : 2 ≤ c.skipSpace.left :=
        Nat.lt_of_le_of_lt (List.length_pos_iff.mpr hd) ha.precedes.left_lt
      obtain ⟨x, xs, hx⟩ := List.exists_cons_of_ne_nil (ha.reaches.rest_ne_nil hd)
      have hskip := skipSpace_followedBy r (ha.reaches.rest_ne_nil hd)
      refine .attr (hskip ▸ not_startsWith_followedBy r hs htwo) ?_
        (hskip ▸ not_startsWith_followedBy r ho htwo) (hskip ▸ ha.followedBy r hd) ih
      rw [hskip, rest_followedBy r hx]
      rwa [hx] at hclose

theorem ReadsOpeningTag.followedBy {c d : Cursor} {tag : OpeningTag}
    (h : ReadsOpeningTag c tag d) : ReadsOpeningTag (c.followedBy r) tag (d.followedBy r) := by
  cases h with
  | tag ho hb =>
      have hname := List.ne_nil_of_mem hb.mem_close
      have hopen := advance_token_followedBy r ho
      have hbody := hb.followedBy r
      rw [← skip_followedBy r hname, ← hopen] at hbody
      have hread := ReadsOpeningTag.tag (startsWith_followedBy r ho) hbody
      rw [hopen, taken_followedBy r hname] at hread
      exact hread

/-! ## Items -/

theorem behindElse_followedBy {c : Cursor} (h : (behindElse c).rest ≠ []) :
    behindElse (c.followedBy r) = (behindElse c).followedBy r :=
  beyond_followedBy r h

theorem ReadsComment.followedBy {html : Bool} {opening closing : List Char} {c d : Cursor}
    {comment : Comment} (h : ReadsComment html opening closing c comment d) (hne : closing ≠ []) :
    ReadsComment html opening closing (c.followedBy r) comment (d.followedBy r) := by
  cases h with
  | comment ho hs =>
      have hopen := advance_token_followedBy r ho
      have hsplit := splitAtFirst?_append_right hs hne r
      have hsplit : splitAtFirst? closing ((c.advance opening.length).followedBy r).rest = _ :=
        hsplit
      rw [← hopen] at hsplit
      have hread := @ReadsComment.comment html _ _ _ _ _ (startsWith_followedBy r ho) hsplit
      rw [hopen] at hread
      exact hread

/-- A comment that was read to its end is closed. -/
theorem ReadsComment.mem_close {html : Bool} {opening closing : List Char} {c d : Cursor}
    {comment : Comment} (h : ReadsComment html opening closing c comment d) {x : Char}
    (hx : x ∈ closing) : x ∈ c.rest := by
  cases h with
  | comment _ hs =>
      refine (c.reaches_advance opening.length).mem_rest ?_
      rw [append_of_splitAtFirst? hs]
      simp [hx]

theorem mark_followedBy {c : Cursor} {m : Mark} {x : Char} (h : Mark.of c.rest = m)
    (hx : x ∈ c.rest) (hc : Token.IsCloser x) : Mark.of (c.followedBy r).rest = m :=
  (Mark.of_append hx hc r).trans h

/-- A mark that is closed by a mustache's delimiter further on is that mark whatever follows. -/
theorem mark_followedBy_of_startsWith {c d : Cursor} {m : Mark} (h : Mark.of c.rest = m)
    (hd : c.Reaches d) (hclose : d.startsWith Token.mustacheClose = true) :
    Mark.of (c.followedBy r).rest = m :=
  mark_followedBy r h (hd.mem_rest (mem_rest_of_startsWith List.mem_cons_self hclose)) (.inl rfl)

theorem ReadsMustache.mem_close {c d : Cursor} {m : Mustache} (h : ReadsMustache c m d) :
    '}' ∈ c.rest := by
  cases h with
  | @mustache d trusting _ _ _ hc hclose =>
      have hmem : '}' ∈ Mustache.closing trusting := by cases trusting <;> decide
      have hreaches := (c.reaches_beyond _).trans hc.reaches
      exact (hreaches.trans d.reaches_skipSpace).mem_rest (mem_rest_of_startsWith hmem hclose)

theorem ReadsOpeningTag.mem_close {c d : Cursor} {tag : OpeningTag}
    (h : ReadsOpeningTag c tag d) : '>' ∈ c.rest := by
  cases h with
  | tag _ hb => exact ((reaches_advance ..).trans (reaches_skip ..)).mem_rest hb.mem_close

theorem textTail_followedBy {c : Cursor} {first : Char} {others : List Char}
    (h : c.rest = first :: others)
    (hd : (c.advance (first :: textTail others).length).rest ≠ []) :
    textTail (others ++ r) = textTail others := by
  rw [advance, h, Token.textTail_eq] at hd
  rw [Token.textTail_eq, Token.textTail_eq]
  exact Token.upTo_append Token.persists_startsMark Token.settles_startsMark hd r

/-- Where a text ends at a mark, it is a text whatever follows. -/
theorem mark_followedBy_of_text {c : Cursor} {first : Char} {others : List Char}
    (hm : Mark.of c.rest = .text) (h : c.rest = first :: others)
    (hd : (c.advance (first :: textTail others).length).rest ≠ []) :
    Mark.of (c.followedBy r).rest = .text := by
  have hfits := Mark.fits_of_eq hm
  rw [Mark.fits, Bool.not_eq_true', h] at hfits
  obtain ⟨rest, hsplit, hstops⟩ := Token.stops_upTo Token.startsMark others
  rw [← Token.textTail_eq] at hsplit hstops
  have hrest : (c.advance (first :: textTail others).length).rest = rest := by
    refine Cursor.rest_advance (h.trans ?_)
    rw [List.cons_append, ← hsplit]
  have hahead := hstops.behind.resolve_left fun hnil => hd (hrest.trans hnil)
  have hlater := Token.settles_startsMark (first :: textTail others) rest r (List.cons_ne_nil _ _)
    hahead (by rwa [List.cons_append, ← hsplit])
  rw [List.cons_append, ← hsplit, ← h] at hlater
  exact Mark.of_text hlater

/-- An item stands where it stood when more follows, and a text does so if it ends at a mark. -/
theorem ReadsItem.followedBy {c d : Cursor} {i : Item} (h : ReadsItem c i d)
    (hi : ∀ t, i = .leaf (.text t) → d.rest ≠ []) :
    ReadsItem (c.followedBy r) i (d.followedBy r) := by
  cases h with
  | closingTag hm hd hclose he =>
      subst hd he
      have hend := (reaches_skipSpace _).mem_rest (mem_rest_of_startsWith List.mem_cons_self hclose)
      have hname := (reaches_skip ..).mem_rest hend
      have hclosed := (c.reaches_advance _).mem_rest hname
      have hopen := le_left_of_advance (List.ne_nil_of_mem hname)
      obtain ⟨htaken, hstill, hbehind⟩ := named_followedBy r (by decide) hclose
      rw [← advance_followedBy r hopen] at htaken hstill hbehind
      have hread := ReadsItem.closingTag (mark_followedBy r hm hclosed (.inr rfl)) rfl hstill rfl
      rw [htaken, hbehind] at hread
      exact hread
  | closingBlock hm hd hclose he =>
      subst hd he
      have hend := (reaches_skipSpace _).mem_rest (mem_rest_of_startsWith List.mem_cons_self hclose)
      have hname := (reaches_skip ..).mem_rest hend
      have hclosed := (c.reaches_beyond _).mem_rest hname
      have hopen : behindBlockClose (c.followedBy r) = (behindBlockClose c).followedBy r :=
        beyond_followedBy r (List.ne_nil_of_mem hname)
      obtain ⟨htaken, hstill, hbehind⟩ := named_followedBy r (by decide) hclose
      rw [← hopen] at htaken hstill hbehind
      have hread := ReadsItem.closingBlock (mark_followedBy r hm hclosed (.inl rfl)) rfl hstill rfl
      rw [htaken, hbehind] at hread
      exact hread
  | bareElse hm hclose =>
      have hbehind := behindElse_followedBy r (rest_ne_nil_of_startsWith (by decide) hclose)
      have hstill := startsWith_followedBy r hclose
      have htwo : 2 ≤ (behindElse c).left := left_pos_of_startsWith hclose
      rw [← hbehind] at hstill
      have hread := ReadsItem.bareElse
        (mark_followedBy_of_startsWith r hm (c.reaches_beyond _) hclose) hstill
      rw [hbehind, advance_followedBy r htwo] at hread
      exact hread
  | chainedElse hm hopen hh hclose =>
      have hne := rest_ne_nil_of_startsWith (by decide) hclose
      have hreaches := (c.reaches_beyond _).trans hh.reaches
      have hbehind := behindElse_followedBy r (hh.reaches.rest_ne_nil hne)
      have htwo := Nat.le_trans (left_pos_of_startsWith hclose) hh.reaches.left_le
      have hnot := not_startsWith_followedBy r hopen htwo
      have hhead := hh.followedBy r hclose
      rw [← hbehind] at hnot hhead
      have hread := ReadsItem.chainedElse (mark_followedBy_of_startsWith r hm hreaches hclose) hnot
        hhead (startsWith_followedBy r hclose)
      rw [advance_token_followedBy r hclose] at hread
      exact hread
  | longRemark hm hc =>
      exact .longRemark (mark_followedBy r hm (hc.mem_close (by decide)) (.inl rfl))
        (hc.followedBy r (by decide))
  | remark hm hc =>
      exact .remark (mark_followedBy r hm (hc.mem_close List.mem_cons_self) (.inl rfl))
        (hc.followedBy r (by decide))
  | openingBlock hm hh hclose =>
      have hne := rest_ne_nil_of_startsWith (by decide) hclose
      have hspace := hh.reaches.rest_ne_nil hne
      have hreaches := (c.reaches_beyond _).trans hh.reaches
      have hhead := hh.followedBy r hclose
      rw [← beyond_followedBy r hspace] at hhead
      have hread := ReadsItem.openingBlock (mark_followedBy_of_startsWith r hm hreaches hclose)
        hhead (startsWith_followedBy r hclose)
      rw [advance_token_followedBy r hclose] at hread
      exact hread
  | mustache hm hread =>
      exact .mustache (mark_followedBy r hm hread.mem_close (.inl rfl)) (hread.followedBy r)
  | comment hm hc =>
      exact .comment (mark_followedBy r hm (hc.mem_close (by decide)) (.inr rfl))
        (hc.followedBy r (by decide))
  | openingTag hm ht =>
      exact .openingTag (mark_followedBy r hm ht.mem_close (.inr rfl)) (ht.followedBy r)
  | text hm hr =>
      have hd := hi _ rfl
      have hread := ReadsItem.text (mark_followedBy_of_text r hm hr hd) (rest_followedBy r hr)
      rw [textTail_followedBy r hr hd, advance_followedBy r (le_left_of_advance hd)] at hread
      exact hread

end Reading

/-! ## Statements -/

theorem ReadsStatements.rest_ne_nil {c d : Cursor} {ss : List Statement}
    (h : ReadsStatements c ss d) (hne : ss ≠ []) : c.rest ≠ [] := by
  cases h with
  | nil => exact absurd rfl hne
  | leaf hi _ => exact hi.rest_ne_nil
  | whole hi _ _ => exact hi.rest_ne_nil
  | element hi _ _ _ _ => exact hi.rest_ne_nil
  | block hi _ _ => exact hi.rest_ne_nil

/-- A list of statements is closed off at a place: something follows there, or its last statement
is none that goes on. -/
def Statement.ClosedOff (ss : List Statement) (d : Cursor) : Prop :=
  ∀ t, ss.getLast? = some (.text t) → d.rest ≠ []

theorem Statement.ClosedOff.tail {s : Statement} {ss : List Statement} {d : Cursor}
    (h : ClosedOff (s :: ss) d) : ClosedOff ss d := by
  intro t ht
  refine h t ?_
  rw [List.getLast?_cons, ht]
  rfl

theorem Statement.ClosedOff.of_item {ss : List Statement} {c d : Cursor} {i : Item}
    (h : ReadsItem c i d) : ClosedOff ss c :=
  fun _ _ => h.rest_ne_nil

/-- A text at the head of statements that are closed off ends at something. -/
theorem Statement.ClosedOff.rest_ne_nil {t : Text} {ss : List Statement} {d e : Cursor}
    (h : ClosedOff (.text t :: ss) e) (hs : ReadsStatements d ss e) : d.rest ≠ [] := by
  cases ss with
  | nil =>
      cases hs
      exact h t rfl
  | cons s ss => exact hs.rest_ne_nil (List.cons_ne_nil s ss)

open Statement

mutual
/-- Statements that are closed off stand where they stood when more follows. -/
theorem ReadsStatements.followedBy (r : List Char) {c d : Cursor} {ss : List Statement} :
    ReadsStatements c ss d → ClosedOff ss d →
      ReadsStatements (c.followedBy r) ss (d.followedBy r)
  | .nil, _ => .nil
  | .leaf hi hs, hc => by
      have hitem := hi.followedBy r fun t ht => by
        obtain rfl := Item.leaf.inj ht
        exact hc.rest_ne_nil hs
      exact .leaf hitem (hs.followedBy r hc.tail)
  | .whole hi hw hs, hc =>
      .whole (hi.followedBy r fun _ => nofun) hw (hs.followedBy r hc.tail)
  | .element hi hw hc hcl hs, hclosed =>
      .element (hi.followedBy r fun _ => nofun) hw (hc.followedBy r (.of_item hcl))
        (hcl.followedBy r fun _ => nofun) (hs.followedBy r hclosed.tail)
  | .block hi hb hs, hc =>
      .block (hi.followedBy r fun _ => nofun) (hb.followedBy r) (hs.followedBy r hc.tail)
theorem ReadsBlock.followedBy (r : List Char) {name : String} {head : BlockHead} {c d : Cursor}
    {b : BlockStatement} :
    ReadsBlock name head c b d → ReadsBlock name head (c.followedBy r) b (d.followedBy r)
  | .close hp hcl =>
      .close (hp.followedBy r (.of_item hcl)) (hcl.followedBy r fun _ => nofun)
  | .inverse hp he hv hcl =>
      .inverse (hp.followedBy r (.of_item he)) (he.followedBy r fun _ => nofun)
        (hv.followedBy r (.of_item hcl)) (hcl.followedBy r fun _ => nofun)
  | .chain hp he hb =>
      .chain (hp.followedBy r (.of_item he)) (he.followedBy r fun _ => nofun) (hb.followedBy r)
end

end Bracework
