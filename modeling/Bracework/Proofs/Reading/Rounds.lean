/-
Reading — loops go round by round to where they are left.

A round of a loop is an entry of the reader into itself.  Every loop that gives
something back has gone there by its rounds, and the last one leaves it: at the
mark that ends a list of statements, at the end of a tag, at the quote of a value,
at what ends the arguments of a call, at the bar behind block parameters, or where
a text does not go on.  A text takes a character at least, which is why a list of
statements gets on past it.
-/
import Bracework.Proofs.Reading.Progress

namespace Bracework

open Reading Relation Cursor

/-! ## Rounds -/

/-- The reader at a place enters itself: it starts the next round of its loop. -/
def Round (p q : Place) : Prop := Enters p q ∧ p.task.level = q.task.level

theorem enters_of_rounds {p q : Place} (h : ReflTransGen Round p q) : ReflTransGen Enters p q :=
  ReflTransGen.mono (fun _ _ => And.left) _ _ h

/-- Whether an item is a mark that ends the list of statements that it follows. -/
def Item.closes : Item → Bool
  | .closeTag _ _ => true
  | .elseMark _ _ => true
  | .closeBlock _ _ => true
  | .leaf _ => false
  | .openTag _ => false
  | .openBlock _ => false

/-- The reader at a place leaves its loop, and reading goes on at another place. -/
inductive Leaves : Place → Cursor → Prop
  | lastStatement {c : Cursor} : c.rest = [] → Leaves ⟨.statements, c⟩ c
  | statements {c d : Cursor} {i : Item} :
      ReadsItem c i d → i.closes = true → Leaves ⟨.statements, c⟩ c
  | text {c : Cursor} {start : Nat} :
      start < c.offset → c.rest = [] ∨ Token.startsMark c.rest = true →
      Leaves ⟨.text start, c⟩ c
  | selfClose {c : Cursor} {tag : String} {start : Nat} :
      c.skipSpace.startsWith Token.selfClose = true →
      Leaves ⟨.tagBody tag start, c⟩ (c.skipSpace.advance 2)
  | tagClose {c : Cursor} {tag : String} {start : Nat} {others : List Char} :
      c.skipSpace.rest = '>' :: others →
      Leaves ⟨.tagBody tag start, c⟩ (c.skipSpace.advance 1)
  | quote {c : Cursor} {quote : Char} {others : List Char} :
      c.rest = quote :: others → Leaves ⟨.parts quote, c⟩ (c.advance 1)
  | bar {c : Cursor} :
      c.skipSpace.startsWith Token.paramsBar = true → Leaves ⟨.names, c⟩ (c.skipSpace.advance 1)
  | arguments {c : Cursor} {named : Bool} :
      Token.endsCall c.skipSpace.rest = true → Leaves ⟨.arguments named, c⟩ c.skipSpace

/-- The rounds of the loop at a place lead to one that leaves it. -/
def EndsAt (p : Place) (d : Cursor) : Prop := ∃ q, ReflTransGen Round p q ∧ Leaves q d

theorem Leaves.endsAt {p : Place} {d : Cursor} (h : Leaves p d) : EndsAt p d := ⟨p, .refl, h⟩

theorem EndsAt.of_rounds {p q : Place} {d : Cursor} (h : ReflTransGen Round p q) (hq : EndsAt q d) :
    EndsAt p d := by
  obtain ⟨r, hr, hleaves⟩ := hq
  exact ⟨r, h.trans hr, hleaves⟩

theorem Enters.endsAt {p q : Place} {d : Cursor} (h : Enters p q)
    (hlevel : p.task.level = q.task.level) (hq : EndsAt q d) : EndsAt p d :=
  hq.of_rounds (.single ⟨h, hlevel⟩)

/-! ## Rounds over single characters -/

theorem Cursor.advance_advance (c : Cursor) (m n : Nat) :
    (c.advance m).advance n = c.advance (m + n) := by
  simp only [advance, List.drop_drop, List.take_add, utf8Length_append, Nat.add_assoc]

/-- Rounds that take a character each, up to where a test of what lies ahead holds. -/
theorem rounds_upTo {t : Task} {ahead : List Char → Bool} {p : Cursor → Prop}
    (hround : ∀ c, p c → c.rest ≠ [] → ahead c.rest = false →
      Enters ⟨t, c⟩ ⟨t, c.advance 1⟩ ∧ p (c.advance 1)) {c : Cursor} (hc : p c) :
    ReflTransGen Round ⟨t, c⟩ ⟨t, c.advance (Token.upTo ahead c.rest).length⟩ := by
  obtain ⟨rest, offset⟩ := c
  induction rest generalizing offset with
  | nil => exact .refl
  | cons x xs ih =>
      rw [Token.upTo]
      split
      case isTrue => exact .refl
      case isFalse h =>
        obtain ⟨hfirst, hnext⟩ := hround _ hc (List.cons_ne_nil x xs) (Bool.eq_false_iff.mpr h)
        have hrest := ih _ hnext
        rw [List.length_cons, Nat.add_comm, ← Cursor.advance_advance]
        exact .head ⟨hfirst, rfl⟩ hrest

/-- What lies ahead behind such rounds is nothing or satisfies the test. -/
theorem behind_upTo (ahead : List Char → Bool) (c : Cursor) :
    (c.advance (Token.upTo ahead c.rest).length).rest = [] ∨
      ahead (c.advance (Token.upTo ahead c.rest).length).rest = true := by
  obtain ⟨rest, hrest, hstops⟩ := Token.stops_upTo ahead c.rest
  have hdrop : c.rest.drop (Token.upTo ahead c.rest).length = rest :=
    (congrArg (List.drop _) hrest).trans List.drop_left
  rw [Cursor.advance, hdrop]
  exact hstops.behind

/-- The text of a quoted value is passed character by character. -/
theorem rounds_behindText (quote : Char) (c : Cursor) :
    ReflTransGen Round ⟨.parts quote, c⟩ ⟨.parts quote, behindText quote c⟩ := by
  rw [behindText, Token.partText_eq]
  exact rounds_upTo (p := fun _ => True)
    (fun c _ hne hahead => ⟨.nextPartChar hne hahead, trivial⟩) trivial

theorem Token.startsMark_eq_false_iff {c : Cursor} :
    startsMark c.rest = false ↔ c.startsWith mustacheOpen = false ∧ startsTag c.rest = false ∧
      c.startsWith commentOpen = false := by
  simp only [startsMark, Bool.or_eq_false_iff, and_assoc, Cursor.startsWith]

/-- Behind the text of a quoted value there is the quote, or a mustache. -/
theorem opens_behindText {quote first : Char} {others : List Char} {c : Cursor}
    (hr : (behindText quote c).rest = first :: others) (hf : first ≠ quote) :
    (behindText quote c).rest.head? ≠ some quote ∧
      (behindText quote c).startsWith Token.mustacheOpen = true := by
  have hhead : (behindText quote c).rest.head? ≠ some quote := by
    rw [hr]
    exact fun h => hf (Option.some.inj h)
  have hbehind := behind_upTo (Token.endsPart quote) c
  rw [← Token.partText_eq, ← behindText] at hbehind
  refine ⟨hhead, ?_⟩
  rcases hbehind with hnil | hends
  · cases hnil.symm.trans hr
  · rcases Bool.or_eq_true_iff.mp hends with hquote | hopen
    · exact absurd (eq_of_beq hquote) hhead
    · exact hopen

/-! ## Loops that give something back -/

theorem Reading.ReadsArguments.endsAt {c d : Cursor} {named : Bool} {params : List Expression}
    {hash : List (String × Expression)} (h : ReadsArguments c named params hash d) :
    EndsAt ⟨.arguments named, c⟩ d := by
  -- one round for every argument; the derivations are mutual, so their number is counted down
  induction hcount : params.length + hash.length generalizing c named params hash with
  | zero =>
      obtain ⟨hparams, hhash⟩ := Nat.add_eq_zero_iff.mp hcount
      obtain rfl := List.eq_nil_of_length_eq_zero hparams
      obtain rfl := List.eq_nil_of_length_eq_zero hhash
      cases h with
      | done hc => exact (Leaves.arguments hc).endsAt
  | succ count ih =>
      cases h with
      | done hc => cases hcount
      | named hc hn he hs =>
          exact (Enters.afterNamed hc hn he).endsAt rfl (ih hs (Nat.succ.inj hcount))
      | positional hc hn he hs =>
          have hcount := (Nat.succ_add _ _).symm.trans hcount
          exact (Enters.afterPositional hc hn he).endsAt rfl (ih hs (Nat.succ.inj hcount))

theorem Reading.ReadsNames.endsAt {c d : Cursor} {names : List String} (h : ReadsNames c names d) :
    EndsAt ⟨.names, c⟩ d := by
  induction h with
  | bar hb => exact (Leaves.bar hb).endsAt
  | name hb hn _ ih => exact (Enters.nextName hb hn).endsAt rfl ih

theorem Reading.ReadsParts.endsAt {quote : Char} {c d : Cursor} {pieces : List AttributePart}
    (h : ReadsParts quote c pieces d) : EndsAt ⟨.parts quote, c⟩ d := by
  induction h with
  | @close c _ hr => exact (Leaves.quote hr).endsAt.of_rounds (rounds_behindText quote c)
  | @mustache c _ _ _ _ _ _ hr hf hm _ ih =>
      obtain ⟨hhead, hopen⟩ := opens_behindText hr hf
      exact ((Enters.afterPart hhead hopen hm).endsAt rfl ih).of_rounds (rounds_behindText quote c)

theorem Reading.ReadsTagBody.endsAt {c d : Cursor} {attributes : List Attribute}
    {modifiers : List Mustache} {selfClosing : Bool} (tag : String) (start : Nat)
    (h : ReadsTagBody c attributes modifiers selfClosing d) : EndsAt ⟨.tagBody tag start, c⟩ d := by
  induction h with
  | selfClose hs => exact (Leaves.selfClose hs).endsAt
  | close hr => exact (Leaves.tagClose hr).endsAt
  | modifier ho hm _ ih => exact (Enters.afterModifier ho hm).endsAt rfl ih
  | attr hs hc ho ha _ ih => exact (Enters.afterAttr hs hc ho ha).endsAt rfl ih

/-- A list of statements is read round by round. -/
theorem ReadsStatements.rounds {c d : Cursor} {ss : List Statement} (h : ReadsStatements c ss d) :
    ReflTransGen Round ⟨.statements, c⟩ ⟨.statements, d⟩ := by
  induction ss generalizing c with
  | nil =>
      cases h
      exact .refl
  | cons s ss ih =>
      cases h with
      | leaf hi hs => exact .head ⟨.nextStatement (.leaf hi .nil), rfl⟩ (ih hs)
      | whole hi hw hs => exact .head ⟨.nextStatement (.whole hi hw .nil), rfl⟩ (ih hs)
      | element hi hw hc hcl hs =>
          exact .head ⟨.nextStatement (.element hi hw hc hcl .nil), rfl⟩ (ih hs)
      | block hi hb hs => exact .head ⟨.nextStatement (.block hi hb .nil), rfl⟩ (ih hs)

/-- A text goes on from its first character to where it ends. -/
theorem Reading.endsAt_text {c : Cursor} {first : Char} {others : List Char}
    (hm : Mark.of c.rest = .text) (hr : c.rest = first :: others) :
    EndsAt ⟨.text c.offset, c⟩ (c.advance (first :: textTail others).length) := by
  have hne : c.rest ≠ [] := hr ▸ List.cons_ne_nil _ _
  have hmark : Token.startsMark c.rest = false := by
    have hfits := Mark.fits_of_eq hm
    rwa [Mark.fits, Bool.not_eq_true'] at hfits
  have hfirst : Enters ⟨.text c.offset, c⟩ ⟨.text c.offset, c.advance 1⟩ :=
    .nextChar hne (Token.startsMark_eq_false_iff.mp hmark).1 (.inl rfl)
  have hlater := (precedes_advance Nat.one_pos hne).offset_lt
  have hend : c.advance (first :: textTail others).length =
      (c.advance 1).advance (Token.upTo Token.startsMark (c.advance 1).rest).length := by
    have hothers : (c.advance 1).rest = others := by
      rw [Cursor.advance, hr]
      rfl
    rw [Cursor.advance_advance, hothers, ← Token.textTail_eq, List.length_cons, Nat.add_comm]
  have hrounds : ReflTransGen Round ⟨.text c.offset, c.advance 1⟩ ⟨.text c.offset,
      (c.advance 1).advance (Token.upTo Token.startsMark (c.advance 1).rest).length⟩ := by
    refine rounds_upTo (p := fun d => c.offset < d.offset) ?_ hlater
    intro d hd hrest hahead
    obtain ⟨hopen, htag, hcomment⟩ := Token.startsMark_eq_false_iff.mp hahead
    exact ⟨.nextChar hrest hopen (.inr ⟨htag, hcomment⟩),
      Nat.lt_of_lt_of_le hd (d.reaches_advance 1).offset_le⟩
  have hlast := Nat.lt_of_lt_of_le hlater ((c.advance 1).reaches_advance
    (Token.upTo Token.startsMark (c.advance 1).rest).length).offset_le
  rw [hend]
  exact hfirst.endsAt rfl ((Leaves.text hlast (behind_upTo _ _)).endsAt.of_rounds hrounds)

/-- The loop at a place gives something back, and reading goes on at another place. -/
inductive Yields : Place → Cursor → Prop
  | statements {c d : Cursor} {ss : List Statement} :
      ReadsStatements c ss d → Leaves ⟨.statements, d⟩ d → Yields ⟨.statements, c⟩ d
  | text {c d : Cursor} {i : Item} :
      Mark.of c.rest = .text → ReadsItem c i d → Yields ⟨.text c.offset, c⟩ d
  | tagBody {c d : Cursor} {tag : String} {start : Nat} {attributes : List Attribute}
      {modifiers : List Mustache} {selfClosing : Bool} :
      ReadsTagBody c attributes modifiers selfClosing d → Yields ⟨.tagBody tag start, c⟩ d
  | parts {c d : Cursor} {quote : Char} {pieces : List AttributePart} :
      ReadsParts quote c pieces d → Yields ⟨.parts quote, c⟩ d
  | names {c d : Cursor} {names : List String} :
      ReadsNames c names d → Yields ⟨.names, c⟩ d
  | arguments {c d : Cursor} {named : Bool} {params : List Expression}
      {hash : List (String × Expression)} :
      ReadsArguments c named params hash d → Yields ⟨.arguments named, c⟩ d

/-- What a loop gives back it has read by its rounds. -/
theorem Yields.endsAt {p : Place} {d : Cursor} (h : Yields p d) : EndsAt p d := by
  cases h with
  | statements hs hleaves => exact hleaves.endsAt.of_rounds hs.rounds
  | text hmark hi =>
      cases hi with
      | text hm hr => exact endsAt_text hm hr
      | _ hm => cases hm.symm.trans hmark
  | tagBody ht => exact ht.endsAt _ _
  | parts hp => exact hp.endsAt
  | names hn => exact hn.endsAt
  | arguments ha => exact ha.endsAt

/-! ## Leaving a loop -/

/-- A statement starts with an item that does not end a list. -/
theorem ReadsStatements.exists_item {c d : Cursor} {s : Statement} {ss : List Statement}
    (h : ReadsStatements c (s :: ss) d) : ∃ i e, ReadsItem c i e ∧ i.closes = false := by
  cases h with
  | leaf hi _ => exact ⟨_, _, hi, rfl⟩
  | whole hi _ _ => exact ⟨_, _, hi, rfl⟩
  | element hi _ _ _ _ => exact ⟨_, _, hi, rfl⟩
  | block hi _ _ => exact ⟨_, _, hi, rfl⟩

theorem Cursor.head?_of_startsWith {c : Cursor} {token : List Char} (hne : token ≠ [])
    (h : c.startsWith token = true) : c.rest.head? = token.head? := by
  obtain ⟨after, hafter⟩ := startsWith_iff.mp h
  rw [← hafter, List.head?_append_of_ne_nil _ hne]

/-- From a round that leaves a loop no other follows. -/
theorem Leaves.not_round {p q : Place} {d : Cursor} (h : Leaves p d) : ¬ Round p q := by
  rintro ⟨hq, hlevel⟩
  cases h with
  | lastStatement hr =>
      cases hq with
      | nextStatement hs =>
          obtain ⟨i, e, hi, -⟩ := hs.exists_item
          exact hi.rest_ne_nil hr
      | item | children | block => cases hlevel
  | statements hi hcloses =>
      cases hq with
      | nextStatement hs =>
          obtain ⟨i', e, hi', hopens⟩ := hs.exists_item
          obtain ⟨rfl, -⟩ := hi.unique hi'
          exact Bool.noConfusion (hcloses.symm.trans hopens)
      | item | children | block => cases hlevel
  | text hstart hor =>
      cases hq with
      | nextChar hne hopen hgoes =>
          rcases hor with hnil | hahead
          · exact hne hnil
          · obtain ⟨htag, hcomment⟩ := hgoes.resolve_left (Nat.ne_of_gt hstart)
            rw [Token.startsMark_eq_false_iff.mpr ⟨hopen, htag, hcomment⟩] at hahead
            exact Bool.noConfusion hahead
  | selfClose hs =>
      cases hq with
      | afterAttr hself => exact Bool.noConfusion (hs.symm.trans hself)
      | afterModifier hopen =>
          have hslash := head?_of_startsWith (by decide) hs
          have hbrace := head?_of_startsWith (by decide) hopen
          exact absurd (hslash.symm.trans hbrace) (by decide)
      | modifier | attr => cases hlevel
  | tagClose hr =>
      cases hq with
      | afterAttr _ hclose => exact hclose _ (Option.mem_def.mpr (congrArg List.head? hr)) rfl
      | afterModifier hopen =>
          have hbrace := head?_of_startsWith (by decide) hopen
          rw [hr, List.head?_cons] at hbrace
          exact absurd hbrace (by decide)
      | modifier | attr => cases hlevel
  | quote hr =>
      cases hq with
      | nextPartChar _ hends =>
          rw [Token.endsPart, hr, List.head?_cons, beq_self_eq_true, Bool.true_or] at hends
          exact Bool.noConfusion hends
      | afterPart hhead => exact hhead (congrArg List.head? hr)
      | part => cases hlevel
  | bar hb =>
      cases hq with
      | nextName hbar => exact Bool.noConfusion (hb.symm.trans hbar)
  | arguments hends =>
      cases hq with
      | afterNamed hgoes | afterPositional hgoes => exact Bool.noConfusion (hends.symm.trans hgoes)
      | named | positional => cases hlevel

end Bracework
