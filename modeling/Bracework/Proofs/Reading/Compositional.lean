/-
Reading — one source behind another.

A source whose last statement is not a text is complete: whatever comes behind it,
its statements are found as they were found alone.  What comes behind them is then
read as it is read by itself, only further on, and on top of statements that no
mark can reach any more.  So a source that is put together from two denotes the
statements of the one and those of the other, and fails as the other does.
-/
import Bracework.Proofs.Reading.Appending
import Bracework.Proofs.Reading.Shifting

namespace Bracework

open Reading

/-! ## Outlines further on -/

/-- A block of an else chain with its spans moved on. -/
def ChainLink.shift (n : Nat) (link : ChainLink) : ChainLink :=
  ⟨link.head.shift n, shiftStatements n link.program⟩

/-- A frame with its spans moved on. -/
def Frame.shift (n : Nat) : Frame → Frame
  | .element tag => .element (tag.shift n)
  | .program name outer head => .program name (outer.map (ChainLink.shift n)) (head.shift n)
  | .inverse name outer head done =>
      .inverse name (outer.map (ChainLink.shift n)) (head.shift n) (shiftStatements n done)

/-- The outline with these statements and frames, moved on, behind statements of a text before it:
they stand, last first, before the outermost frame. -/
def Outline.above (n : Nat) (base : List Statement) :
    List Statement → List (Frame × List Statement) → Outline
  | done, [] => ⟨shiftStatements n done ++ base, []⟩
  | done, (frame, before) :: frames =>
      ⟨shiftStatements n done,
        (frame.shift n, (above n base before frames).done) :: (above n base before frames).frames⟩

/-- An outline, moved on, behind statements of a text before it. -/
def Outline.behind (n : Nat) (base : List Statement) (o : Outline) : Outline :=
  above n base o.done o.frames

theorem BlockHead.name_shift (n : Nat) (head : BlockHead) : (head.shift n).name = head.name := by
  obtain ⟨⟨callee, params, hash⟩, names, start⟩ := head
  cases callee <;> rfl

theorem shiftStatements_reverse (n : Nat) (ss : List Statement) :
    shiftStatements n ss.reverse = (shiftStatements n ss).reverse := by
  rw [shiftStatements_eq_map, shiftStatements_eq_map, List.map_reverse]

theorem closeChain_shift (n : Nat) (block : BlockStatement) (outer : List ChainLink) (stop : Nat) :
    (closeChain block outer stop).shift n =
      closeChain (block.shift n) (outer.map (ChainLink.shift n)) (n + stop) := by
  unfold closeChain
  induction outer generalizing block with
  | nil => rfl
  | cons link outer ih =>
      rw [List.foldl_cons, ih, List.map_cons, List.foldl_cons]
      rfl

namespace Outline

variable (n : Nat) (base : List Statement)

theorem behind_add (o : Outline) (s : Statement) :
    (o.add s).behind n base = (o.behind n base).add (s.shift n) := by
  obtain ⟨done, frames⟩ := o
  cases frames <;> rfl

theorem behind_push (o : Outline) (f : Frame) :
    (o.push f).behind n base = (o.behind n base).push (f.shift n) := rfl

/-- In an open frame, the statements before the source are out of reach. -/
theorem body_behind (done : List Statement) (frame : Frame × List Statement)
    (frames : List (Frame × List Statement)) :
    (behind n base ⟨done, frame :: frames⟩).body =
      shiftStatements n (body ⟨done, frame :: frames⟩) :=
  (shiftStatements_reverse n done).symm

theorem behind_close {s s' : Statement} (before : List Statement)
    (frames : List (Frame × List Statement)) (h : s' = s.shift n) :
    (⟨s' :: (above n base before frames).done, (above n base before frames).frames⟩ : Outline) =
      behind n base ⟨s :: before, frames⟩ := by
  rw [h]
  exact (behind_add n base ⟨before, frames⟩ s).symm

theorem closeTag_behind (o : Outline) (name : String) (span : Span) :
    Alike n (fun p q => q = p.behind n base) (o.closeTag name span)
      ((o.behind n base).closeTag name (span.shift n)) := by
  obtain ⟨done, frames⟩ := o
  rcases frames with _ | ⟨⟨frame, before⟩, frames⟩
  · exact .error rfl
  · cases frame with
    | element tag =>
        have hbody := body_behind n base done (.element tag, before) frames
        have hclose := congrArg
          (fun body => Statement.element ((tag.shift n).close body (n + span.stop))) hbody
        exact .ite (fun _ => .ok (behind_close n base before frames hclose)) fun _ => .error rfl
    | program block outer head => exact .error rfl
    | inverse block outer head done => exact .error rfl

theorem divide_behind (o : Outline) (chained : Option BlockHead) (span : Span) :
    Alike n (fun p q => q = p.behind n base) (o.divide chained span)
      ((o.behind n base).divide (chained.map (BlockHead.shift n)) (span.shift n)) := by
  obtain ⟨done, frames⟩ := o
  rcases frames with _ | ⟨⟨frame, before⟩, frames⟩
  · exact .error rfl
  · cases frame with
    | element tag => exact .error rfl
    | program name outer head =>
        have hbody := body_behind n base done (.program name outer head, before) frames
        cases chained with
        | none =>
            exact .ok (congrArg (fun body => Outline.mk []
              ((.inverse name (outer.map (ChainLink.shift n)) (head.shift n) body, _) :: _)) hbody)
        | some inner =>
            exact .ok (congrArg (fun body => Outline.mk []
              ((.program name (⟨head.shift n, body⟩ :: outer.map (ChainLink.shift n))
                (inner.shift n), _) :: _)) hbody)
    | inverse name outer head program => exact .error rfl

theorem closeBlock_behind (o : Outline) (found : String) (span : Span) :
    Alike n (fun p q => q = p.behind n base) (o.closeBlock found span)
      ((o.behind n base).closeBlock found (span.shift n)) := by
  obtain ⟨done, frames⟩ := o
  rcases frames with _ | ⟨⟨frame, before⟩, frames⟩
  · exact .error rfl
  · cases frame with
    | element tag => exact .error rfl
    | program name outer head =>
        have hbody := body_behind n base done (.program name outer head, before) frames
        have hchain := closeChain_shift n
          (head.close (body ⟨done, (.program name outer head, before) :: frames⟩) none span.stop)
          outer span.stop
        have hclose := congrArg (fun body => Statement.block (closeChain
          ((head.shift n).close body none (n + span.stop)) (outer.map (ChainLink.shift n))
            (n + span.stop))) hbody
        have hclosed := hclose.trans (congrArg Statement.block hchain).symm
        exact .ite (fun _ => .ok (behind_close n base before frames hclosed)) fun _ => .error rfl
    | inverse name outer head program =>
        have hbody := body_behind n base done (.inverse name outer head program, before) frames
        have hchain := closeChain_shift n (head.close program
          (some ⟨body ⟨done, (.inverse name outer head program, before) :: frames⟩, []⟩) span.stop)
          outer span.stop
        have hclose := congrArg (fun body => Statement.block (closeChain
          ((head.shift n).close (shiftStatements n program) (some ⟨body, []⟩) (n + span.stop))
            (outer.map (ChainLink.shift n)) (n + span.stop))) hbody
        have hclosed := hclose.trans (congrArg Statement.block hchain).symm
        exact .ite (fun _ => .ok (behind_close n base before frames hclosed)) fun _ => .error rfl

/-- What an item makes of an outline behind other statements is what it makes of the outline by
itself, behind them; and if it does not fit there, it does not fit here. -/
theorem step_behind (o : Outline) (i : Item) :
    Alike n (fun p q => q = p.behind n base) (o.step i) ((o.behind n base).step (i.shift n)) := by
  cases i with
  | leaf s => exact .ok (behind_add n base o s).symm
  | openTag tag =>
      have hadd := behind_add n base o (.element (tag.close [] tag.span.stop))
      have hpush := behind_push n base o (.element tag)
      exact .ite (fun _ => .ok hadd.symm) fun _ => .ok hpush.symm
  | closeTag name span => exact closeTag_behind n base o name span
  | openBlock head =>
      have hpush := behind_push n base o (.program head.name [] head)
      show Alike n _ (.ok (o.push _)) (.ok ((o.behind n base).push _))
      rw [head.name_shift n]
      exact .ok hpush.symm
  | elseMark chained span => exact divide_behind n base o chained span
  | closeBlock name span => exact closeBlock_behind n base o name span

theorem finish_behind (o : Outline) (limit : Nat) :
    Alike n (fun ss ts => ts = base.reverse ++ shiftStatements n ss) (o.finish limit)
      ((o.behind n base).finish (n + limit)) := by
  obtain ⟨done, frames⟩ := o
  rcases frames with _ | ⟨⟨frame, before⟩, frames⟩
  · refine .ok ?_
    show (shiftStatements n done ++ base).reverse = base.reverse ++ shiftStatements n done.reverse
    rw [List.reverse_append, shiftStatements_reverse]
  · cases frame <;> exact .error rfl

/-- The rest of a source makes of an outline behind other statements what it makes of the outline by
itself, behind them. -/
theorem run_behind (o : Outline) (c : Cursor) :
    Alike n (fun ss ts => ts = base.reverse ++ shiftStatements n ss) (o.run c)
      ((o.behind n base).run (c.shift n)) := by
  match hr : c.rest with
  | [] =>
      have hr' : (c.shift n).rest = [] := hr
      rw [run_of_nil hr, run_of_nil hr']
      exact finish_behind n base o c.offset
  | first :: others =>
      have hr' : (c.shift n).rest = first :: others := hr
      have hitem := item_shift n hr
      generalize hread : item c first others hr = x at hitem
      generalize hread' : item (c.shift n) first others hr' = y at hitem
      cases hitem with
      | error he =>
          rw [run_of_error hread, run_of_error hread']
          exact .error he
      | @ok s t hst =>
          obtain ⟨hnext, hvalue⟩ := hst
          have hlt := s.further
          have hone := run_of_item (readsItem_of_ok hread) (o := o)
          have hother := run_of_item (readsItem_of_ok hread') (o := o.behind n base)
          rw [hnext, hvalue] at hother
          have hstep := step_behind n base o s.value
          rw [hone, hother]
          generalize o.step s.value = p at hstep
          generalize (o.behind n base).step (s.value.shift n) = q at hstep
          cases hstep with
          | error he => exact .error he
          | @ok o' _ ho =>
              rw [ho]
              exact run_behind o' s.next
termination_by c.left

end Outline

/-- The items between two places change an outline, and nothing else. -/
theorem Runs.run_eq {o o' : Outline} {c d : Cursor} (h : Runs o c o' d) : o.run c = o'.run d := by
  induction h with
  | refl => rfl
  | step hi hs _ ih =>
      rw [Outline.run_of_item hi, hs]
      exact ih

/-! ## Whole sources -/

namespace Template

/-- What a source denotes behind another one whose last statement is not a text: the statements of
the other, and then its own, moved on; or its own error, moved on. -/
theorem alike_ofChars_append {source : List Char} {t : Template}
    (h : Template.ofChars source = .ok t) (hlast : ∀ text, t.body.getLast? ≠ some (.text text))
    (others : List Char) :
    Alike (utf8Length source)
      (fun t₂ t' => t' = ⟨t.body ++ shiftStatements (utf8Length source) t₂.body, []⟩)
      (Template.ofChars others) (Template.ofChars (source ++ others)) := by
  obtain ⟨-, ⟨rest, offset⟩, hbody, hd⟩ := ofChars_eq_ok_iff.mp h
  obtain rfl : rest = [] := hd
  have hoffset : utf8Length source = offset := by
    have hlimit := hbody.reaches.limit_eq
    simpa [Cursor.limit, Cursor.ofChars, utf8Length] using hlimit
  have hread := hbody.followedBy others fun text htext => absurd htext (hlast text)
  -- What is left behind the statements of the source is the other one, further on.
  have hbehind : Outline.behind offset t.body.reverse {} = ⟨t.body.reverse ++ [], []⟩ := by
    rw [List.append_nil]
    rfl
  have hrest : Outline.run {} (Cursor.ofChars (source ++ others)) =
      (Outline.behind offset t.body.reverse {}).run ((Cursor.ofChars others).shift offset) := by
    rw [hbehind]
    exact (hread.runs {}).run_eq
  have hrun := Outline.run_behind offset t.body.reverse {} (Cursor.ofChars others)
  rw [List.reverse_reverse, ← hrest] at hrun
  rw [ofChars_eq_run others, ofChars_eq_run (source ++ others), hoffset]
  exact hrun.map fun ss ts hss => congrArg (fun body => Template.mk body []) hss

/-- A source behind another one that is complete, which it is if it is empty or its last statement is
not a text: if both denote templates, they denote the statements of the first and then those of the
second, with all their spans moved on by the bytes of the first; and if the second has an error, the
two have the same error, moved on by as many bytes. -/
theorem parse_append {s₁ filename : String} {t₁ : Template} (h : parse s₁ filename = .ok t₁)
    (hlast : ∀ text, t₁.body.getLast? ≠ some (.text text)) (s₂ : String) :
    (∀ t₂, parse s₂ filename = .ok t₂ → parse (s₁ ++ s₂) filename =
      .ok ⟨t₁.body ++ shiftStatements (utf8Length s₁.toList) t₂.body, []⟩) ∧
    (∀ e, parse s₂ filename = .error e → parse (s₁ ++ s₂) filename =
      .error ⟨⟨e.error.fault, e.error.span.shift (utf8Length s₁.toList)⟩,
        ⟨s₁ ++ s₂, filename⟩⟩) := by
  have halike := alike_ofChars_append (ofChars_of_parse h) hlast s₂.toList
  rw [← String.toList_append] at halike
  unfold parse
  generalize Template.ofChars s₂.toList = x at halike
  generalize Template.ofChars (s₁ ++ s₂).toList = y at halike
  cases halike with
  | error he =>
      constructor
      · intro t₂ ht₂
        cases ht₂
      · intro e herr
        obtain rfl := Except.error.inj herr
        rw [he]
        rfl
  | ok ht =>
      constructor
      · intro t₂ ht₂
        obtain rfl := Except.ok.inj ht₂
        rw [ht]
      · intro e herr
        cases herr

/-- A mustache behind a character of two bytes. -/
def mustacheSource : String := "é\x7b\x7ba\x7d\x7d"

/-- A mark that closes nothing. -/
def straySource : String := "\x7b\x7b/if\x7d\x7d"

theorem parse_append_mustache :
    ∃ t₁ t₂, parse mustacheSource "two.hbs" = .ok t₁ ∧
      (∀ text, t₁.body.getLast? ≠ some (.text text)) ∧
      parse "<b>é</b>" "two.hbs" = .ok t₂ ∧
      parse (mustacheSource ++ "<b>é</b>") "two.hbs" =
        .ok ⟨t₁.body ++ shiftStatements 7 t₂.body, []⟩ ∧
      parse straySource "two.hbs" =
        .error ⟨⟨.unexpected (.closingBlock "if"), ⟨0, 7⟩⟩, ⟨straySource, "two.hbs"⟩⟩ ∧
      parse (mustacheSource ++ straySource) "two.hbs" =
        .error ⟨⟨.unexpected (.closingBlock "if"), ⟨7, 14⟩⟩,
          ⟨mustacheSource ++ straySource, "two.hbs"⟩⟩ := by
  have hfirst : (parse mustacheSource "two.hbs").toOption.map
      (fun t => t.body.getLast?.map Statement.startsWithBrace) = some (some true) := by
    decide +kernel
  have hsecond : (parse "<b>é</b>" "two.hbs").toOption.map (fun _ => ()) = some () := by
    decide +kernel
  have hstray : (Template.ofChars straySource.toList).map (fun _ => ()) =
      .error ⟨.unexpected (.closingBlock "if"), ⟨0, 7⟩⟩ := by
    decide +kernel
  obtain ⟨t₁, h₁, hbrace⟩ := exists_of_parse hfirst
  obtain ⟨t₂, h₂, -⟩ := exists_of_parse hsecond
  have hlast : ∀ text, t₁.body.getLast? ≠ some (.text text) := by
    intro text htext
    rw [htext] at hbrace
    cases hbrace
  have herror : parse straySource "two.hbs" =
      .error ⟨⟨.unexpected (.closingBlock "if"), ⟨0, 7⟩⟩, ⟨straySource, "two.hbs"⟩⟩ := by
    unfold parse
    generalize Template.ofChars straySource.toList = x at hstray
    cases x with
    | ok t => cases hstray
    | error e => rw [Except.error.inj hstray]
  exact ⟨t₁, t₂, h₁, hlast, h₂, (parse_append h₁ hlast _).1 t₂ h₂, herror,
    (parse_append h₁ hlast _).2 _ herror⟩

end Template

end Bracework
