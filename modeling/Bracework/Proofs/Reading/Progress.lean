/-
Reading — every call and every round gets on.

A reader that calls another one, or starts its next round, has moved on, or it
calls one with a smaller number at the place where it stands.  So by whatever ways
a reader comes back to itself it has moved on, no way goes on for ever, and all
places on the way are places of the source: its texts can be cut there.
-/
import Bracework.Proofs.Reading.Passage
import Bracework.Proofs.Reading.Places
import Bracework.Proofs.Spans.Placement

namespace Bracework

open Reading Relation

namespace Cursor

/-! ## Moving on -/

/-- A place is behind another, with some characters between them. -/
def Precedes (c d : Cursor) : Prop := ∃ text, text ≠ [] ∧ c.Passes text d

theorem Precedes.reaches {c d : Cursor} (h : c.Precedes d) : c.Reaches d := by
  obtain ⟨text, -, hpasses⟩ := h
  exact ⟨text, hpasses⟩

theorem Precedes.offset_lt {c d : Cursor} (h : c.Precedes d) : c.offset < d.offset := by
  obtain ⟨text, hne, -, hoffset⟩ := h
  cases text with
  | nil => exact absurd rfl hne
  | cons x xs =>
      have hpos := x.utf8Size_pos
      rw [hoffset, utf8Length]
      omega

theorem Precedes.left_lt {c d : Cursor} (h : c.Precedes d) : d.left < c.left := by
  obtain ⟨text, hne, hrest, -⟩ := h
  have hpos := List.length_pos_iff.mpr hne
  rw [left, left, hrest, List.length_append]
  omega

theorem Reaches.left_le {c d : Cursor} (h : c.Reaches d) : d.left ≤ c.left := by
  obtain ⟨text, hrest, -⟩ := h
  rw [left, left, hrest, List.length_append]
  omega

/-- Places of the same source have the same end. -/
theorem Reaches.limit_eq {c d : Cursor} (h : c.Reaches d) : c.limit = d.limit := by
  obtain ⟨text, hrest, hoffset⟩ := h
  rw [limit, limit, hrest, hoffset, utf8Length_append, Nat.add_assoc]

/-- A place that can be reached and has fewer characters left is further on. -/
theorem Reaches.precedes {c d : Cursor} (h : c.Reaches d) (hlt : d.left < c.left) :
    c.Precedes d := by
  obtain ⟨text, hpasses⟩ := h
  refine ⟨text, ?_, hpasses⟩
  rintro rfl
  rw [left, left, hpasses.1] at hlt
  exact absurd hlt (Nat.lt_irrefl _)

theorem Precedes.trans_reaches {c d e : Cursor} (h : c.Precedes d) (h' : d.Reaches e) :
    c.Precedes e :=
  (h.reaches.trans h').precedes (Nat.lt_of_le_of_lt h'.left_le h.left_lt)

theorem Reaches.trans_precedes {c d e : Cursor} (h : c.Reaches d) (h' : d.Precedes e) :
    c.Precedes e :=
  (h.trans h'.reaches).precedes (Nat.lt_of_lt_of_le h'.left_lt h.left_le)

theorem precedes_advance {c : Cursor} {count : Nat} (hpos : 0 < count) (h : c.rest ≠ []) :
    c.Precedes (c.advance count) := by
  refine (c.reaches_advance count).precedes ?_
  have hleft : 0 < c.left := List.length_pos_iff.mpr h
  rw [left_advance]
  omega

/-- Behind a delimiter that stands at a place, the place is passed. -/
theorem precedes_token {c : Cursor} {token : List Char} (hne : token ≠ [])
    (h : c.startsWith token = true) : c.Precedes (c.advance token.length) :=
  ⟨token, hne, passes_advance (startsWith_iff.mp h)⟩

theorem precedes_skip {c : Cursor} {test : Char → Bool} (h : c.taken test ≠ []) :
    c.Precedes (c.skip test) :=
  ⟨_, h, c.passes_skip test⟩

end Cursor

open Cursor

namespace Reading

theorem ReadsExpression.precedes {c d : Cursor} {e : Expression} (h : ReadsExpression c e d) :
    c.Precedes d := by
  obtain ⟨s, -, -, rfl⟩ := h.complete
  exact h.reaches.precedes s.further

theorem ReadsCall.precedes {c d : Cursor} {inner : Call} (h : ReadsCall c inner d) :
    c.Precedes d := by
  obtain ⟨s, -, -, rfl⟩ := h.complete 0
  exact h.reaches.precedes s.further

theorem ReadsMustache.precedes {c d : Cursor} {m : Mustache} (h : ReadsMustache c m d) :
    c.Precedes d := by
  obtain ⟨s, -, -, rfl⟩ := h.complete
  exact h.reaches.precedes s.further

theorem ReadsAttribute.precedes {c d : Cursor} {a : Attribute} (h : ReadsAttribute c a d) :
    c.Precedes d := by
  obtain ⟨s, -, -, rfl⟩ := h.complete ' '
  exact h.reaches.precedes s.further

theorem ReadsItem.precedes {c d : Cursor} {i : Item} (h : ReadsItem c i d) : c.Precedes d := by
  match hr : c.rest with
  | [] => exact absurd hr h.rest_ne_nil
  | first :: others =>
      obtain ⟨s, -, -, rfl⟩ := h.complete hr
      exact h.reaches.precedes s.further

end Reading

theorem ReadsStatements.precedes {c d : Cursor} {s : Statement} {ss : List Statement}
    (h : ReadsStatements c (s :: ss) d) : c.Precedes d := by
  cases h with
  | leaf hi hs => exact hi.precedes.trans_reaches hs.reaches
  | whole hi _ hs => exact hi.precedes.trans_reaches hs.reaches
  | element hi _ hc hcl hs =>
      exact hi.precedes.trans_reaches (hc.reaches.trans (hcl.reaches.trans hs.reaches))
  | block hi hb hs => exact hi.precedes.trans_reaches (hb.reaches.trans hs.reaches)

/-- The delimiter that a mark is known by takes some of the text. -/
theorem Mark.precedes_advance {c : Cursor} {m : Mark} (h : Mark.of c.rest = m) (hm : m ≠ .text)
    (token : List Char) (ht : token ≠ []) : c.Precedes (c.advance token.length) := by
  refine Cursor.precedes_advance (List.length_pos_iff.mpr ht) ?_
  intro hnil
  rw [hnil] at h
  exact hm h.symm

/-! ## One call or round -/

/-- From one place to another: moved on, or on the way in. -/
def Place.Moves (p q : Place) : Prop :=
  p.cursor.Precedes q.cursor ∨ p.cursor.Reaches q.cursor ∧ q.task.level < p.task.level

theorem Place.Moves.reaches {p q : Place} (h : p.Moves q) : p.cursor.Reaches q.cursor :=
  h.elim Precedes.reaches And.left

theorem Place.Moves.trans {p q r : Place} (h : p.Moves q) (h' : q.Moves r) : p.Moves r := by
  rcases h with h | ⟨h, hlevel⟩
  · exact .inl (h.trans_reaches h'.reaches)
  · rcases h' with h' | ⟨h', hlevel'⟩
    · exact .inl (h.trans_precedes h')
    · exact .inr ⟨h.trans h', Nat.lt_trans hlevel' hlevel⟩

theorem Place.Moves.inward {c d : Cursor} {t u : Task} (h : c.Reaches d)
    (hlevel : Nat.blt u.level t.level = true) : Place.Moves ⟨t, c⟩ ⟨u, d⟩ :=
  .inr ⟨h, Nat.le_of_ble_eq_true hlevel⟩

/-- A call or a round moves on or goes further in. -/
theorem Enters.moves {p q : Place} (h : Enters p q) : p.Moves q := by
  cases h with
  | body => exact .inward (.refl _) rfl
  | content => exact .inward (.refl _) rfl
  | program => exact .inward (.refl _) rfl
  | inverse hs hi => exact .inl (hs.reaches.trans_precedes hi.precedes)
  | otherwise => exact .inward (.refl _) rfl
  | chain hs hi => exact .inl (hs.reaches.trans_precedes hi.precedes)
  | item _ => exact .inward (.refl _) rfl
  | children hi _ => exact .inl hi.precedes
  | block hi => exact .inl hi.precedes
  | nextStatement hs => exact .inl hs.precedes
  | closingTagEnd hm =>
      have hmark := Mark.precedes_advance hm (by decide) Token.closingTagOpen (by decide)
      exact .inl (hmark.trans_reaches ((reaches_skip ..).trans (reaches_skipSpace _)))
  | closingBlockEnd hm =>
      have hmark := Mark.precedes_advance hm (by decide) Token.blockClose (by decide)
      exact .inl (hmark.trans_reaches ((reaches_skipSpace _).trans
        ((reaches_skip ..).trans (reaches_skipSpace _))))
  | chainedHead hm _ =>
      have hmark := Mark.precedes_advance hm (by decide) Token.elseOpen (by decide)
      exact .inl (hmark.trans_reaches (reaches_skipSpace _))
  | chainedEnd hm _ hh =>
      have hmark := Mark.precedes_advance hm (by decide) Token.elseOpen (by decide)
      exact .inl (hmark.trans_reaches ((reaches_skipSpace _).trans hh.reaches))
  | openingHead hm =>
      have hmark := Mark.precedes_advance hm (by decide) Token.blockOpen (by decide)
      exact .inl (hmark.trans_reaches (reaches_skipSpace _))
  | openingEnd hm hh =>
      have hmark := Mark.precedes_advance hm (by decide) Token.blockOpen (by decide)
      exact .inl (hmark.trans_reaches ((reaches_skipSpace _).trans hh.reaches))
  | mustacheItem _ => exact .inward (.refl _) rfl
  | tagItem _ => exact .inward (.refl _) rfl
  | textItem _ => exact .inward (.refl _) rfl
  | nextChar hne _ _ => exact .inl (precedes_advance Nat.one_pos hne)
  | tagStart => exact .inward (.refl _) rfl
  | tagBody ht => exact .inl ((precedes_token (by decide) ht).trans_reaches (reaches_skip ..))
  | modifier _ => exact .inward (reaches_skipSpace _) rfl
  | afterModifier _ hm => exact .inl ((reaches_skipSpace _).trans_precedes hm.precedes)
  | attr _ _ _ _ => exact .inward (reaches_skipSpace _) rfl
  | afterAttr _ _ _ ha => exact .inl ((reaches_skipSpace _).trans_precedes ha.precedes)
  | value hn _ =>
      exact .inl ((precedes_skip hn).trans_reaches ((reaches_skipSpace _).trans
        ((reaches_advance ..).trans (reaches_skipSpace _))))
  | mustacheValue _ => exact .inward (.refl _) rfl
  | parts _ hr _ => exact .inl (precedes_advance Nat.one_pos (hr ▸ List.cons_ne_nil _ _))
  | nextPartChar hne _ => exact .inl (precedes_advance Nat.one_pos hne)
  | part _ _ => exact .inward (.refl _) rfl
  | afterPart _ _ hm => exact .inl hm.precedes
  | headCall => exact .inward (.refl _) rfl
  | paramsBar hc _ =>
      exact .inl (hc.precedes.trans_reaches ((reaches_skipSpace _).trans
        ((reaches_advance ..).trans (reaches_skipSpace _))))
  | names hc _ _ =>
      exact .inl (hc.precedes.trans_reaches ((reaches_skipSpace _).trans
        ((reaches_advance ..).trans ((reaches_skipSpace _).trans (reaches_advance ..)))))
  | nextName _ hn => exact .inl ((reaches_skipSpace _).trans_precedes (precedes_skip hn))
  | mustacheStart _ => exact .inward (.refl _) rfl
  | @mustacheCall _ trusting _ ho =>
      have hne : Mustache.opening trusting ≠ [] := by cases trusting <;> decide
      exact .inl ((precedes_token hne ho).trans_reaches (reaches_skipSpace _))
  | @mustacheEnd _ _ trusting _ _ ho hc =>
      have hne : Mustache.opening trusting ≠ [] := by cases trusting <;> decide
      exact .inl ((precedes_token hne ho).trans_reaches ((reaches_skipSpace _).trans
        (hc.reaches.trans (reaches_skipSpace _))))
  | callee _ => exact .inward (.refl _) rfl
  | arguments _ he => exact .inl he.precedes
  | named _ _ =>
      exact .inward ((reaches_skipSpace _).trans
        ((reaches_advance ..).trans (reaches_skipSpace _))) rfl
  | afterNamed _ _ he =>
      exact .inl (((reaches_skipSpace _).trans
        ((reaches_advance ..).trans (reaches_skipSpace _))).trans_precedes he.precedes)
  | positional _ _ => exact .inward (reaches_skipSpace _) rfl
  | afterPositional _ _ he => exact .inl ((reaches_skipSpace _).trans_precedes he.precedes)
  | sub hr =>
      have hparen := precedes_advance Nat.one_pos (hr ▸ List.cons_ne_nil _ _)
      exact .inl (hparen.trans_reaches (reaches_skipSpace _))
  | subEnd hr hc =>
      have hparen := precedes_advance Nat.one_pos (hr ▸ List.cons_ne_nil _ _)
      exact .inl (hparen.trans_reaches ((reaches_skipSpace _).trans
        (hc.reaches.trans (reaches_skipSpace _))))

/-! ## All calls and rounds -/

theorem moves_of_transGen {p q : Place} (h : TransGen Enters p q) : p.Moves q := by
  induction h with
  | single h => exact h.moves
  | tail _ h ih => exact ih.trans h.moves

/-- A reader that comes back to itself, or to one further out, has moved on. -/
theorem offset_lt_of_transGen {p q : Place} (h : TransGen Enters p q)
    (hlevel : p.task.level ≤ q.task.level) : p.cursor.offset < q.cursor.offset := by
  rcases moves_of_transGen h with h | ⟨-, hlt⟩
  · exact h.offset_lt
  · exact absurd hlt (Nat.not_lt.mpr hlevel)

theorem Task.level_le (t : Task) : t.level ≤ 18 := by
  cases t <;> exact Nat.le_of_ble_eq_true rfl

/-- How many calls and rounds can still follow one another from a place. -/
def Place.depth (p : Place) : Nat := 19 * p.cursor.left + p.task.level

theorem Enters.depth_lt {p q : Place} (h : Enters p q) : q.depth < p.depth := by
  have hlevel := q.task.level_le
  unfold Place.depth
  rcases h.moves with h | ⟨h, hlt⟩
  · have hleft := h.left_lt
    omega
  · have hleft := h.left_le
    omega

/-- A run of calls and rounds ends. -/
theorem length_le_depth {p : Place} {run : List Place} (h : List.IsChain Enters (p :: run)) :
    run.length ≤ p.depth := by
  induction run generalizing p with
  | nil => exact Nat.zero_le _
  | cons q run ih =>
      obtain ⟨hfirst, hrun⟩ := List.isChain_cons_cons.mp h
      have hlt := hfirst.depth_lt
      have hle := ih hrun
      rw [List.length_cons]
      omega

/-! ## Places of the source -/

theorem Visits.reaches {source : List Char} {p : Place} (h : Visits source p) :
    (Cursor.ofChars source).Reaches p.cursor := by
  induction h with
  | refl => exact .refl _
  | tail _ h ih => exact ih.trans h.moves.reaches

/-- A place that is reached in a source is no further on than its end. -/
theorem Cursor.Reaches.offset_le_utf8Length {source : List Char} {c : Cursor}
    (h : (Cursor.ofChars source).Reaches c) : c.offset ≤ utf8Length source := by
  obtain ⟨before, hsource, hoffset⟩ := h
  have hsource : source = before ++ c.rest := hsource
  have hoffset : c.offset = 0 + utf8Length before := hoffset
  rw [hoffset, hsource, utf8Length_append]
  omega

/-- Any text that stands at a place of a source can be cut out of it, and so can what is left
behind the text. -/
theorem Cursor.Reaches.cut_eq {source text : List Char} {c : Cursor}
    (h : (Cursor.ofChars source).Reaches c) (ht : c.startsWith text = true) :
    Span.slice? ⟨c.offset, c.offset + utf8Length text⟩ source = some text ∧
      afterBytes? source (c.offset + utf8Length text) = some (c.rest.drop text.length) := by
  obtain ⟨before, hsource, hoffset⟩ := h
  obtain ⟨after, hafter⟩ := startsWith_iff.mp ht
  have hsource : source = before ++ (text ++ after) := by
    rw [hafter]
    exact hsource
  have hstart : c.offset = utf8Length before := hoffset.trans (Nat.zero_add _)
  have hstop : c.offset + utf8Length text = utf8Length (before ++ text) := by
    rw [hstart, utf8Length_append]
  rw [hstop, hstart, hsource, ← hafter, List.drop_left]
  exact ⟨Span.slice?_append .., List.append_assoc before text after ▸ afterBytes?_append ..⟩

end Bracework
