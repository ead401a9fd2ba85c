/-
Reading — what becomes of a source.

Lists of statements are read with a stack of open frames.  A frame is open because
the reader entered it, and what it holds are statements that were read behind the
place where it did.  So a mark that does not fit is complained of by the reader of
the innermost frame, at the place where its content begins; an item that cannot be
read is met where the statements before it end.  A source that has no such place is
read to its end.
-/
import Bracework.Proofs.Reading.Failures

namespace Bracework

open Reading Relation

/-! ## Open frames -/

/-- The reader that the innermost of some frames is open in. -/
def frameTask : List (Frame × List Statement) → Task
  | [] => .template
  | (.element tag, _) :: _ => .children tag
  | (.program name _ head, _) :: _ => .block name head
  | (.inverse name _ head _, _) :: _ => .inverse name head

theorem enters_statements (frames : List (Frame × List Statement)) (c : Cursor) :
    Enters ⟨frameTask frames, c⟩ ⟨.statements, c⟩ := by
  rcases frames with _ | ⟨⟨frame, _⟩, frames⟩
  · exact .body
  · cases frame with
    | element tag => exact .content
    | program name outer head => exact .program
    | inverse name outer head program => exact .otherwise

/-- The last block of a chain is entered from where its first one begins. -/
theorem OpenChain.visits {name : String} {b c : Cursor} {outer : List ChainLink} {head : BlockHead}
    (h : OpenChain name b outer head c) :
    ReflTransGen Enters ⟨.statements, b⟩ ⟨.block name head, c⟩ := by
  induction h with
  | head hi hn => exact .single (hn ▸ .block hi)
  | link _ hp he ih => exact ih.tail (.chain hp he)

/-- What is open was entered. -/
theorem OpenFrames.visits {c₀ a : Cursor} {frames : List (Frame × List Statement)}
    (h : OpenFrames c₀ frames a) :
    ReflTransGen Enters ⟨.template, c₀⟩ ⟨frameTask frames, a⟩ := by
  induction h with
  | none => exact .refl
  | @element frames before a b c tag _ hb hi hw ih =>
      have hbefore := (ih.tail (enters_statements frames a)).trans (enters_of_rounds hb.rounds)
      exact hbefore.tail (.children hi hw)
  | @program frames before a b c name outer head _ hb hc ih =>
      have hbefore := (ih.tail (enters_statements frames a)).trans (enters_of_rounds hb.rounds)
      exact hbefore.trans hc.visits
  | @inverse frames before program a b c d e name outer head mark _ hb hc hp he ih =>
      have hbefore := (ih.tail (enters_statements frames a)).trans (enters_of_rounds hb.rounds)
      exact (hbefore.trans hc.visits).tail (.inverse hp he)

/-! ## Complaints of the innermost frame -/

/-- A mark that does not fit is complained of where the content of the innermost frame begins. -/
theorem Outline.raises_of_step {o : Outline} {a c d : Cursor} {i : Item} {e : ParseError}
    (hb : ReadsStatements a o.body c) (hi : ReadsItem c i d) (h : o.step i = .error e) :
    Raises ⟨frameTask o.frames, a⟩ e := by
  obtain ⟨done, frames⟩ := o
  cases i with
  | leaf s => cases h
  | openTag tag =>
      rw [step] at h
      split at h <;> cases h
  | openBlock head => cases h
  | closeTag name span =>
      rcases frames with _ | ⟨⟨frame, before⟩, frames⟩
      · obtain rfl := Except.error.inj h
        exact .strayTag hb hi
      · cases frame with
        | element tag =>
            simp only [step, closeTag] at h
            split at h
            case isTrue => cases h
            case isFalse hname =>
              obtain rfl := Except.error.inj h
              exact .mismatchedClose hb hi hname
        | program block outer head =>
            obtain rfl := Except.error.inj h
            exact .tagCloseInBlock hb hi
        | inverse block outer head program =>
            obtain rfl := Except.error.inj h
            exact .tagCloseInInverse hb hi
  | elseMark chained span =>
      rcases frames with _ | ⟨⟨frame, before⟩, frames⟩
      · obtain rfl := Except.error.inj h
        exact .strayElse hb hi
      · cases frame with
        | element tag =>
            obtain rfl := Except.error.inj h
            exact .elseInElement hb hi
        | program block outer head => cases chained <;> cases h
        | inverse block outer head program =>
            obtain rfl := Except.error.inj h
            exact .elseInInverse hb hi
  | closeBlock found span =>
      rcases frames with _ | ⟨⟨frame, before⟩, frames⟩
      · obtain rfl := Except.error.inj h
        exact .strayBlock hb hi
      · cases frame with
        | element tag =>
            obtain rfl := Except.error.inj h
            exact .blockCloseInElement hb hi
        | program block outer head =>
            simp only [step, closeBlock] at h
            split at h
            case isTrue => cases h
            case isFalse hname =>
              obtain rfl := Except.error.inj h
              exact .wrongProgramClose hb hi hname
        | inverse block outer head program =>
            simp only [step, closeBlock] at h
            split at h
            case isTrue => cases h
            case isFalse hname =>
              obtain rfl := Except.error.inj h
              exact .wrongInverseClose hb hi hname

/-- What is open at the end is complained of where its content begins. -/
theorem Outline.raises_of_finish {o : Outline} {a c : Cursor} {e : ParseError}
    (hb : ReadsStatements a o.body c) (hc : c.rest = []) (h : o.finish c.offset = .error e) :
    Raises ⟨frameTask o.frames, a⟩ e := by
  obtain ⟨done, frames⟩ := o
  rcases frames with _ | ⟨⟨frame, before⟩, frames⟩
  · cases h
  · cases frame with
    | element tag =>
        obtain rfl := Except.error.inj h
        exact .unclosedElement hb hc
    | program name outer head =>
        obtain rfl := Except.error.inj h
        exact .unclosedProgram hb hc
    | inverse name outer head program =>
        obtain rfl := Except.error.inj h
        exact .unclosedInverse hb hc

/-! ## The rest of a source -/

/-- What becomes of an outline with the rest of a source. -/
def Outline.run (o : Outline) (c : Cursor) : Reading (List Statement) :=
  match o.steps (Scan.run c).items with
  | .error e => .error e
  | .ok o' => match (Scan.run c).fault with
    | some e => .error e
    | none => o'.finish c.limit

theorem Outline.run_of_nil {o : Outline} {c : Cursor} (hc : c.rest = []) :
    o.run c = o.finish c.offset := by
  have hlimit : c.limit = c.offset := by
    rw [Cursor.limit, hc]
    rfl
  rw [run, Scan.run_of_nil hc, hlimit]
  rfl

theorem Outline.run_of_error {o : Outline} {c : Cursor} {first : Char} {others : List Char}
    {hr : c.rest = first :: others} {e : ParseError} (h : item c first others hr = .error e) :
    o.run c = .error e := by
  rw [run, Scan.run_of_cons hr, h]
  rfl

theorem Outline.run_of_item {o : Outline} {c d : Cursor} {i : Item} (h : ReadsItem c i d) :
    o.run c = match o.step i with
      | .error e => .error e
      | .ok o' => o'.run d := by
  match hr : c.rest with
  | [] => exact absurd hr h.rest_ne_nil
  | first :: others =>
      have hlimit := h.reaches.limit_eq
      obtain ⟨s, hs, rfl, rfl⟩ := h.complete hr
      rw [run, Scan.run_of_cons hr, hs]
      dsimp only [steps]
      cases o.step s.value with
      | error e => rfl
      | ok o' =>
          dsimp only
          rw [run, hlimit]

/-- What fails in the rest of a source is raised at a place that is entered from its beginning. -/
theorem Outline.fails_of_run {c₀ c : Cursor} {o : Outline} {e : ParseError} (ho : o.Holds c₀ c)
    (h : o.run c = .error e) : Fails ⟨.template, c₀⟩ e := by
  obtain ⟨a, hframes, hbody⟩ := ho
  match hr : c.rest with
  | [] =>
      rw [run_of_nil hr] at h
      exact .of_reflTransGen hframes.visits (raises_of_finish hbody hr h).fails
  | first :: others =>
      match hi : item c first others hr with
      | .error e' =>
          rw [run_of_error hi] at h
          obtain rfl := Except.error.inj h
          have hbefore := (hframes.visits.tail (enters_statements o.frames a)).trans (enters_of_rounds hbody.rounds)
          exact .of_reflTransGen (hbefore.tail (.item (hr ▸ List.cons_ne_nil _ _)))
            (fails_of_item hi)
      | .ok s =>
          have hitem := readsItem_of_ok hi
          have hlt := s.further
          rw [run_of_item hitem] at h
          cases hs : o.step s.value with
          | error e' =>
              rw [hs] at h
              obtain rfl := Except.error.inj h
              exact .of_reflTransGen hframes.visits (raises_of_step hbody hitem hs).fails
          | ok o' =>
              rw [hs] at h
              exact fails_of_run (Holds.step ⟨a, hframes, hbody⟩ hitem hs) h
termination_by c.left

/-! ## Whole sources -/

theorem Template.ofChars_eq_run (source : List Char) :
    Template.ofChars source =
      (Outline.run {} (Cursor.ofChars source)).map fun body => ⟨body, []⟩ := by
  have hlimit : (Cursor.ofChars source).limit = utf8Length source := Nat.zero_add _
  rw [ofChars, Outline.run, hlimit]
  cases Outline.steps {} (Scan.run (Cursor.ofChars source)).items with
  | error e => rfl
  | ok o =>
      dsimp only
      cases (Scan.run (Cursor.ofChars source)).fault <;> rfl

/-- A source that denotes no template has a place where its error is raised. -/
theorem Template.raises_of_ofChars {source : List Char} {e : ParseError}
    (h : Template.ofChars source = .error e) : ∃ p, Visits source p ∧ Raises p e := by
  rw [ofChars_eq_run] at h
  cases hrun : Outline.run {} (Cursor.ofChars source) with
  | ok body =>
      rw [hrun] at h
      cases h
  | error e' =>
      rw [hrun] at h
      obtain rfl := Except.error.inj h
      exact Outline.fails_of_run ⟨_, .none, .nil⟩ hrun

/-- A source that denotes a template is read round by round to its end. -/
theorem Template.visits_of_ofChars {source : List Char} {t : Template}
    (h : Template.ofChars source = .ok t) :
    ∃ c, ReadsStatements (Cursor.ofChars source) t.body c ∧ c.rest = [] ∧
      Visits source ⟨.statements, c⟩ := by
  obtain ⟨-, c, hbody, hc⟩ := ofChars_eq_ok_iff.mp h
  exact ⟨c, hbody, hc, .head .body (enters_of_rounds hbody.rounds)⟩

/-- How a source is read, whatever becomes of it: where a reader stands, and how it gets on. -/
structure Progresses (source : List Char) : Prop where
  /-- No place is behind the end of the source. -/
  inside : ∀ p, Visits source p → p.cursor.offset ≤ utf8Length source
  /-- The text that stands at a place, up to any of its characters, can be cut out of the source,
  and so can what is left behind it. -/
  cut : ∀ p text, Visits source p → p.cursor.startsWith text = true →
    Span.slice? ⟨p.cursor.offset, p.cursor.offset + utf8Length text⟩ source = some text ∧
      afterBytes? source (p.cursor.offset + utf8Length text) =
        some (p.cursor.rest.drop text.length)
  /-- The next round of a loop starts further on. -/
  round : ∀ p q, Visits source p → Round p q → p.cursor.offset < q.cursor.offset
  /-- A loop that gives something back has gone there by its rounds, up to one that leaves it. -/
  left : ∀ p d, Visits source p → Yields p d → EndsAt p d
  /-- No other round follows one that leaves its loop. -/
  last : ∀ p q d, Visits source p → Leaves p d → ¬ Round p q
  /-- By whatever calls a reader is entered again, or one that it was called by, it is further
  on. -/
  call : ∀ p q, Visits source p → TransGen Enters p q → p.task.level ≤ q.task.level →
    p.cursor.offset < q.cursor.offset
  /-- Only so many calls and rounds follow one another. -/
  finite : ∀ run, List.IsChain Enters (⟨.template, Cursor.ofChars source⟩ :: run) →
    run.length ≤ 19 * source.length + 18

theorem progresses (source : List Char) : Progresses source := by
  constructor
  case inside => exact fun p hp => hp.reaches.offset_le_utf8Length
  case cut => exact fun p text hp htext => hp.reaches.cut_eq htext
  case round => exact fun p q _ h => offset_lt_of_transGen (.single h.1) (Nat.le_of_eq h.2)
  case left => exact fun p d _ h => h.endsAt
  case last => exact fun p q d _ h => h.not_round
  case call => exact fun p q _ h hlevel => offset_lt_of_transGen h hlevel
  case finite => exact fun run hrun => length_le_depth hrun

/-- Whatever the source is, it is read with progress, to a template that stands in it from its
beginning to its end, or to one of five faults, which is raised at a place that was entered. -/
theorem Template.parse_progresses (source filename : String) :
    Progresses source.toList ∧
      ((∃ t c, Template.parse source filename = .ok t ∧
          ReadsStatements (Cursor.ofChars source.toList) t.body c ∧ c.rest = [] ∧
          Visits source.toList ⟨.statements, c⟩) ∨
        ∃ e p, Template.parse source filename = .error ⟨e, ⟨source, filename⟩⟩ ∧
          Visits source.toList p ∧ Raises p e ∧
          e.fault.code ∈
            ["unexpected", "eof", "unclosed_element", "mismatched_close", "unclosed_block"]) := by
  refine ⟨progresses _, ?_⟩
  cases hread : Template.ofChars source.toList with
  | ok t =>
      obtain ⟨c, hbody, hc, hvisits⟩ := visits_of_ofChars hread
      exact .inl ⟨t, c, by rw [parse, hread], hbody, hc, hvisits⟩
  | error e =>
      obtain ⟨p, hvisits, hraises⟩ := raises_of_ofChars hread
      refine .inr ⟨e, p, by rw [parse, hread], hvisits, hraises, ?_⟩
      cases e.fault <;> simp [Fault.code]

end Bracework
