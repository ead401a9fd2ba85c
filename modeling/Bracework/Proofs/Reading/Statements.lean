/-
Reading — the outline finds exactly the bracketed lists of statements.

The construction of a tree keeps a stack of open frames and judges every item
by the innermost one.  The grammar here has no stack: an element is its opening
tag, a list of statements and the closing tag of the same name, and a block is
its opening mark, a program and what may follow a program.  The two agree.
From the grammar to the stack, a list of statements is read whatever is open.
From the stack to the grammar, `Outline.Holds` is the invariant: every open
frame is a derivation that waits for its closing mark, and one item keeps it.
-/
import Bracework.Proofs.Reading.Reader
import Bracework.Template.Tree

namespace Bracework

open Reading

/-! ## The grammar -/

mutual
/-- Statements stand one after the other between two places. -/
inductive ReadsStatements : Cursor → List Statement → Cursor → Prop
  | nil {c : Cursor} : ReadsStatements c [] c
  | leaf {c d e : Cursor} {s : Statement} {ss : List Statement} :
      ReadsItem c (.leaf s) d → ReadsStatements d ss e → ReadsStatements c (s :: ss) e
  | whole {c d e : Cursor} {tag : OpeningTag} {ss : List Statement} :
      ReadsItem c (.openTag tag) d → tag.isWhole = true → ReadsStatements d ss e →
      ReadsStatements c (.element (tag.close [] tag.span.stop) :: ss) e
  | element {c c₁ c₂ d e : Cursor} {tag : OpeningTag} {span : Span}
      {children ss : List Statement} :
      ReadsItem c (.openTag tag) c₁ → tag.isWhole = false → ReadsStatements c₁ children c₂ →
      ReadsItem c₂ (.closeTag tag.tag span) d → ReadsStatements d ss e →
      ReadsStatements c (.element (tag.close children span.stop) :: ss) e
  | block {c c₁ d e : Cursor} {head : BlockHead} {b : BlockStatement} {ss : List Statement} :
      ReadsItem c (.openBlock head) c₁ → ReadsBlock head.name head c₁ b d →
      ReadsStatements d ss e → ReadsStatements c (.block b :: ss) e
/-- What follows the head of a block stands between two places: its program, and what
its closing mark, an else mark or a chained block makes of it. -/
inductive ReadsBlock : String → BlockHead → Cursor → BlockStatement → Cursor → Prop
  | close {name : String} {head : BlockHead} {c d e : Cursor} {program : List Statement}
      {span : Span} :
      ReadsStatements c program d → ReadsItem d (.closeBlock name span) e →
      ReadsBlock name head c (head.close program none span.stop) e
  | inverse {name : String} {head : BlockHead} {c d d₁ d₂ e : Cursor}
      {program inverse : List Statement} {mark span : Span} :
      ReadsStatements c program d → ReadsItem d (.elseMark none mark) d₁ →
      ReadsStatements d₁ inverse d₂ → ReadsItem d₂ (.closeBlock name span) e →
      ReadsBlock name head c (head.close program (some ⟨inverse, []⟩) span.stop) e
  | chain {name : String} {head inner : BlockHead} {c d d₁ e : Cursor}
      {program : List Statement} {mark : Span} {b : BlockStatement} :
      ReadsStatements c program d → ReadsItem d (.elseMark (some inner) mark) d₁ →
      ReadsBlock name inner d₁ b e →
      ReadsBlock name head c (head.close program (some ⟨[.block b], []⟩) b.span.stop) e
end

theorem ReadsStatements.append {c d e : Cursor} {ss ts : List Statement} :
    ReadsStatements c ss d → ReadsStatements d ts e → ReadsStatements c (ss ++ ts) e
  | .nil, h => h
  | .leaf hi hs, h => .leaf hi (hs.append h)
  | .whole hi hw hs, h => .whole hi hw (hs.append h)
  | .element hi hw hc hcl hs, h => .element hi hw hc hcl (hs.append h)
  | .block hi hb hs, h => .block hi hb (hs.append h)

/-! ## A reader finds one thing only -/

namespace Reading

theorem unique_of_complete {α : Type} {c d d' : Cursor} {x : Reading (Step c α)} {v v' : α}
    (h : ∃ s, x = .ok s ∧ s.value = v ∧ s.next = d)
    (h' : ∃ s, x = .ok s ∧ s.value = v' ∧ s.next = d') : v = v' ∧ d = d' := by
  obtain ⟨s, hs, rfl, rfl⟩ := h
  obtain ⟨s', hs', rfl, rfl⟩ := h'
  obtain rfl := Except.ok.inj (hs.symm.trans hs')
  exact ⟨rfl, rfl⟩

theorem ReadsExpression.unique {c d d' : Cursor} {e e' : Expression} (h : ReadsExpression c e d)
    (h' : ReadsExpression c e' d') : e = e' ∧ d = d' :=
  unique_of_complete h.complete h'.complete

theorem ReadsMustache.unique {c d d' : Cursor} {m m' : Mustache} (h : ReadsMustache c m d)
    (h' : ReadsMustache c m' d') : m = m' ∧ d = d' :=
  unique_of_complete h.complete h'.complete

theorem ReadsAttribute.unique {c d d' : Cursor} {a a' : Attribute} (h : ReadsAttribute c a d)
    (h' : ReadsAttribute c a' d') : a = a' ∧ d = d' :=
  unique_of_complete (h.complete 'a') (h'.complete 'a')

theorem ReadsItem.rest_ne_nil {c d : Cursor} {i : Item} (h : ReadsItem c i d) : c.rest ≠ [] := by
  intro hnil
  cases h with
  | text _ hr => rw [hr] at hnil; cases hnil
  | _ hm => rw [hnil] at hm; cases hm

theorem ReadsItem.unique {c d d' : Cursor} {i i' : Item} (h : ReadsItem c i d)
    (h' : ReadsItem c i' d') : i = i' ∧ d = d' := by
  obtain ⟨first, others, hr⟩ := List.exists_cons_of_ne_nil h.rest_ne_nil
  exact unique_of_complete (h.complete hr) (h'.complete hr)

end Reading

/-! ## Runs of the outline -/

/-- The items between two places turn one outline into another. -/
inductive Runs : Outline → Cursor → Outline → Cursor → Prop
  | refl {o : Outline} {c : Cursor} : Runs o c o c
  | step {o o' o'' : Outline} {c d e : Cursor} {i : Item} :
      ReadsItem c i d → o.step i = .ok o' → Runs o' d o'' e → Runs o c o'' e

theorem Runs.trans {o o' o'' : Outline} {c d e : Cursor} (h : Runs o c o' d)
    (h' : Runs o' d o'' e) : Runs o c o'' e := by
  induction h with
  | refl => exact h'
  | step hi hs _ ih => exact .step hi hs (ih h')

theorem Scan.run_of_nil {c : Cursor} (hr : c.rest = []) : Scan.run c = ⟨[], none⟩ := by
  rw [Scan.run]
  split
  · rfl
  · rename_i hcons; rw [hr] at hcons; cases hcons

theorem Scan.run_of_cons {c : Cursor} {first : Char} {others : List Char}
    (hr : c.rest = first :: others) :
    Scan.run c = match item c first others hr with
      | .error e => ⟨[], some e⟩
      | .ok s => ⟨s.value :: (Scan.run s.next).items, (Scan.run s.next).fault⟩ := by
  rw [Scan.run]
  split
  · rename_i hnil; rw [hr] at hnil; cases hnil
  · rename_i hcons
    obtain ⟨rfl, rfl⟩ := List.cons.inj (hr.symm.trans hcons)
    rfl

theorem runs_of_steps {c : Cursor} {o o' : Outline} (hf : (Scan.run c).fault = none)
    (hs : o.steps (Scan.run c).items = .ok o') : ∃ d, Runs o c o' d ∧ d.rest = [] := by
  match hr : c.rest with
  | [] =>
      rw [Scan.run_of_nil hr] at hs
      obtain rfl := Except.ok.inj hs
      exact ⟨c, .refl, hr⟩
  | first :: others =>
      rw [Scan.run_of_cons hr] at hf hs
      match hi : item c first others hr with
      | .error e => rw [hi] at hf; cases hf
      | .ok s =>
          rw [hi] at hf hs
          dsimp only [Outline.steps] at hs
          match hst : o.step s.value with
          | .error e => rw [hst] at hs; cases hs
          | .ok o₁ =>
              rw [hst] at hs
              have hlt := s.further
              obtain ⟨d, hd, hnil⟩ := runs_of_steps hf hs
              exact ⟨d, .step (readsItem_of_ok hi) hst hd, hnil⟩
termination_by c.left

theorem Runs.steps {c d : Cursor} {o o' : Outline} (h : Runs o c o' d) (hd : d.rest = []) :
    (Scan.run c).fault = none ∧ o.steps (Scan.run c).items = .ok o' := by
  induction h with
  | refl =>
      rw [Scan.run_of_nil hd]
      exact ⟨rfl, rfl⟩
  | @step o o' o'' c d e i hi hs _ ih =>
      obtain ⟨hf, hst⟩ := ih hd
      match hr : c.rest with
      | [] => exact absurd hr hi.rest_ne_nil
      | first :: others =>
          obtain ⟨read, h1, rfl, rfl⟩ := hi.complete hr
          rw [Scan.run_of_cons hr, h1]
          dsimp only [Outline.steps]
          rw [hs]
          exact ⟨hf, hst⟩

/-! ## From the grammar to the stack -/

mutual
theorem ReadsStatements.runs {c d : Cursor} {ss : List Statement} (o : Outline) :
    ReadsStatements c ss d → Runs o c ⟨ss.reverse ++ o.done, o.frames⟩ d
  | .nil => .refl
  | @ReadsStatements.leaf _ _ _ s ss hi hs => by
      have h := ReadsStatements.runs (o.add s) hs
      rw [List.reverse_cons, List.append_assoc]
      exact .step hi rfl h
  | @ReadsStatements.whole _ _ _ tag ss hi hw hs => by
      have h := ReadsStatements.runs (o.add (.element (tag.close [] tag.span.stop))) hs
      rw [List.reverse_cons, List.append_assoc]
      exact .step hi (by rw [Outline.step, if_pos hw]) h
  | @ReadsStatements.element _ _ _ _ _ tag span children ss hi hw hc hcl hs => by
      have h₁ := ReadsStatements.runs (o.push (.element tag)) hc
      have h₂ := ReadsStatements.runs (o.add (.element (tag.close children span.stop))) hs
      rw [List.reverse_cons, List.append_assoc]
      refine .step hi (by rw [Outline.step, if_neg (by simp [hw])]) (h₁.trans (.step hcl ?_ h₂))
      simp [Outline.step, Outline.closeTag, Outline.push, Outline.add, Outline.body]
  | @ReadsStatements.block _ _ _ _ head b ss hi hb hs => by
      have h₁ := ReadsBlock.runs [] o.done o.frames hb
      have h₂ := ReadsStatements.runs (o.add (.block b)) hs
      rw [List.reverse_cons, List.append_assoc]
      exact .step hi rfl (h₁.trans h₂)
theorem ReadsBlock.runs {name : String} {head : BlockHead} {c d : Cursor} {b : BlockStatement}
    (outer : List ChainLink) (before : List Statement) (frames : List (Frame × List Statement)) :
    ReadsBlock name head c b d →
      Runs ⟨[], (.program name outer head, before) :: frames⟩ c
        ⟨.block (closeChain b outer b.span.stop) :: before, frames⟩ d
  | @ReadsBlock.close name head _ _ _ program span hp hcl => by
      refine (ReadsStatements.runs _ hp).trans (.step hcl ?_ .refl)
      simp [Outline.step, Outline.closeBlock, Outline.body, BlockHead.close]
  | @ReadsBlock.inverse name head _ _ _ _ _ program inverse mark span hp he hv hcl => by
      have h := ReadsStatements.runs ⟨[], (.inverse name outer head program, before) :: frames⟩ hv
      refine (ReadsStatements.runs _ hp).trans (.step he ?_ (h.trans (.step hcl ?_ .refl)))
      · simp [Outline.step, Outline.divide, Outline.body]
      · simp [Outline.step, Outline.closeBlock, Outline.body, BlockHead.close]
  | @ReadsBlock.chain name head inner _ _ _ _ program mark b hp he hb => by
      have h := ReadsBlock.runs (⟨head, program⟩ :: outer) before frames hb
      refine (ReadsStatements.runs _ hp).trans (.step he ?_ h)
      simp [Outline.step, Outline.divide, Outline.body]
end

/-! ## From the stack to the grammar -/

/-- The else chain of an open block, from its opening mark to the head of its last block. -/
inductive OpenChain (name : String) (b : Cursor) : List ChainLink → BlockHead → Cursor → Prop
  | head {head : BlockHead} {c : Cursor} :
      ReadsItem b (.openBlock head) c → head.name = name → OpenChain name b [] head c
  | link {outer : List ChainLink} {head inner : BlockHead} {c d e : Cursor}
      {program : List Statement} {mark : Span} :
      OpenChain name b outer head c → ReadsStatements c program d →
      ReadsItem d (.elseMark (some inner) mark) e →
      OpenChain name b (⟨head, program⟩ :: outer) inner e

/-- What closes the last block of a chain closes them all. -/
theorem OpenChain.close {name : String} {b c e : Cursor} {outer : List ChainLink}
    {head : BlockHead} {last : BlockStatement} (h : OpenChain name b outer head c)
    (hl : ReadsBlock name head c last e) :
    ∃ (first : BlockHead) (c₁ : Cursor), ReadsItem b (.openBlock first) c₁ ∧
      ReadsBlock first.name first c₁ (closeChain last outer last.span.stop) e := by
  induction h generalizing last with
  | head hi hn => exact ⟨_, _, hi, hn ▸ hl⟩
  | link _ hp he ih => exact ih (.chain hp he hl)

/-- The open frames of an outline, up to the place where the content of the innermost one begins. -/
inductive OpenFrames (c₀ : Cursor) : List (Frame × List Statement) → Cursor → Prop
  | none : OpenFrames c₀ [] c₀
  | element {frames : List (Frame × List Statement)} {before : List Statement} {a b c : Cursor}
      {tag : OpeningTag} :
      OpenFrames c₀ frames a → ReadsStatements a before.reverse b → ReadsItem b (.openTag tag) c →
      tag.isWhole = false → OpenFrames c₀ ((.element tag, before) :: frames) c
  | program {frames : List (Frame × List Statement)} {before : List Statement} {a b c : Cursor}
      {name : String} {outer : List ChainLink} {head : BlockHead} :
      OpenFrames c₀ frames a → ReadsStatements a before.reverse b →
      OpenChain name b outer head c →
      OpenFrames c₀ ((.program name outer head, before) :: frames) c
  | inverse {frames : List (Frame × List Statement)} {before program : List Statement}
      {a b c d e : Cursor} {name : String} {outer : List ChainLink} {head : BlockHead}
      {mark : Span} :
      OpenFrames c₀ frames a → ReadsStatements a before.reverse b →
      OpenChain name b outer head c → ReadsStatements c program d →
      ReadsItem d (.elseMark none mark) e →
      OpenFrames c₀ ((.inverse name outer head program, before) :: frames) e

/-- An outline accounts for everything between two places. -/
def Outline.Holds (c₀ : Cursor) (o : Outline) (c : Cursor) : Prop :=
  ∃ a, OpenFrames c₀ o.frames a ∧ ReadsStatements a o.body c

theorem Outline.Holds.add {c₀ c d : Cursor} {o : Outline} {s : Statement} (h : o.Holds c₀ c)
    (hs : ReadsStatements c [s] d) : (o.add s).Holds c₀ d := by
  obtain ⟨a, hf, hb⟩ := h
  refine ⟨a, hf, ?_⟩
  simpa [Outline.body, Outline.add] using hb.append hs

theorem Outline.Holds.closeTag {c₀ c d : Cursor} {o o' : Outline} {name : String} {span : Span}
    (h : o.Holds c₀ c) (hi : ReadsItem c (.closeTag name span) d)
    (hs : o.closeTag name span = .ok o') : o'.Holds c₀ d := by
  obtain ⟨a, hf, hb⟩ := h
  unfold Outline.closeTag at hs
  split at hs
  · cases hs
  · rename_i tag before frames hfr
    split at hs
    · rename_i hname
      obtain rfl := Except.ok.inj hs
      rw [hfr] at hf
      cases hf with
      | element hf hbefore hopen hw =>
          refine ⟨_, hf, ?_⟩
          simpa [Outline.body] using
            hbefore.append (.element hopen hw hb (hname ▸ hi) .nil)
    · cases hs
  · cases hs
  · cases hs

theorem Outline.Holds.divide {c₀ c d : Cursor} {o o' : Outline} {chained : Option BlockHead}
    {span : Span} (h : o.Holds c₀ c) (hi : ReadsItem c (.elseMark chained span) d)
    (hs : o.divide chained span = .ok o') : o'.Holds c₀ d := by
  obtain ⟨a, hf, hb⟩ := h
  unfold Outline.divide at hs
  split at hs
  · cases hs
  · cases hs
  · rename_i name outer head before frames hfr
    rw [hfr] at hf
    cases hf with
    | program hf hbefore hchain =>
        cases chained with
        | none =>
            obtain rfl := Except.ok.inj hs
            exact ⟨_, .inverse hf hbefore hchain hb hi, .nil⟩
        | some inner =>
            obtain rfl := Except.ok.inj hs
            exact ⟨_, .program hf hbefore (.link hchain hb hi), .nil⟩
  · cases hs

theorem Outline.Holds.closeBlock {c₀ c d : Cursor} {o o' : Outline} {found : String}
    {span : Span} (h : o.Holds c₀ c) (hi : ReadsItem c (.closeBlock found span) d)
    (hs : o.closeBlock found span = .ok o') : o'.Holds c₀ d := by
  obtain ⟨a, hf, hb⟩ := h
  unfold Outline.closeBlock at hs
  split at hs
  · cases hs
  · cases hs
  · rename_i name outer head before frames hfr
    split at hs
    · rename_i hname
      obtain rfl := Except.ok.inj hs
      rw [hfr] at hf
      cases hf with
      | program hf hbefore hchain =>
          obtain ⟨first, c₁, hopen, hblock⟩ := hchain.close (.close hb (hname ▸ hi))
          refine ⟨_, hf, ?_⟩
          simpa [Outline.body, BlockHead.close] using hbefore.append (.block hopen hblock .nil)
    · cases hs
  · rename_i name outer head program before frames hfr
    split at hs
    · rename_i hname
      obtain rfl := Except.ok.inj hs
      rw [hfr] at hf
      cases hf with
      | inverse hf hbefore hchain hprogram hmark =>
          obtain ⟨first, c₁, hopen, hblock⟩ :=
            hchain.close (.inverse hprogram hmark hb (hname ▸ hi))
          refine ⟨_, hf, ?_⟩
          simpa [Outline.body, BlockHead.close] using hbefore.append (.block hopen hblock .nil)
    · cases hs

/-- One item keeps an outline true. -/
theorem Outline.Holds.step {c₀ c d : Cursor} {o o' : Outline} {i : Item} (h : o.Holds c₀ c)
    (hi : ReadsItem c i d) (hs : o.step i = .ok o') : o'.Holds c₀ d := by
  cases i with
  | leaf s =>
      obtain rfl := Except.ok.inj hs
      exact h.add (.leaf hi .nil)
  | openTag tag =>
      rw [Outline.step] at hs
      split at hs
      · rename_i hw
        obtain rfl := Except.ok.inj hs
        exact h.add (.whole hi hw .nil)
      · rename_i hw
        obtain rfl := Except.ok.inj hs
        obtain ⟨a, hf, hb⟩ := h
        exact ⟨d, .element hf hb hi (by simpa using hw), .nil⟩
  | closeTag name span => exact h.closeTag hi hs
  | openBlock head =>
      obtain rfl := Except.ok.inj hs
      obtain ⟨a, hf, hb⟩ := h
      exact ⟨d, .program hf hb (.head hi rfl), .nil⟩
  | elseMark chained span => exact h.divide hi hs
  | closeBlock found span => exact h.closeBlock hi hs

theorem Runs.holds {c₀ c d : Cursor} {o o' : Outline} (hr : Runs o c o' d) (h : o.Holds c₀ c) :
    o'.Holds c₀ d := by
  induction hr with
  | refl => exact h
  | step hi hs _ ih => exact ih (h.step hi hs)

/-! ## Whole sources -/

/-- A source denotes a template exactly when the template's statements stand in it from its
beginning to its end. -/
theorem Template.ofChars_eq_ok_iff {source : List Char} {t : Template} :
    Template.ofChars source = .ok t ↔
      t.params = [] ∧ ∃ d, ReadsStatements (Cursor.ofChars source) t.body d ∧ d.rest = [] := by
  constructor
  · intro h
    unfold Template.ofChars at h
    dsimp only at h
    match hs : Outline.steps {} (Scan.run (Cursor.ofChars source)).items with
    | .error e => rw [hs] at h; cases h
    | .ok o =>
        match hf : (Scan.run (Cursor.ofChars source)).fault with
        | some e => rw [hs, hf] at h; cases h
        | none =>
            rw [hs, hf] at h
            dsimp only [Outline.finish] at h
            obtain ⟨d, hr, hd⟩ := runs_of_steps hf hs
            obtain ⟨a, hframes, hb⟩ := hr.holds ⟨_, .none, .nil⟩
            match hfr : o.frames with
            | [] =>
                rw [hfr] at h
                obtain rfl := Except.ok.inj h
                rw [hfr] at hframes
                cases hframes
                exact ⟨rfl, d, hb, hd⟩
            | (.element _, _) :: _ | (.program _ _ _, _) :: _ | (.inverse _ _ _ _, _) :: _ =>
                rw [hfr] at h
                cases h
  · rintro ⟨hp, d, hb, hd⟩
    obtain ⟨hf, hs⟩ := (hb.runs {}).steps hd
    unfold Template.ofChars
    dsimp only
    rw [hs, hf]
    cases t
    cases hp
    simp [Outline.finish, Outline.body, Except.map]

theorem Template.ofChars_of_parse {source filename : String} {t : Template}
    (h : Template.parse source filename = .ok t) : Template.ofChars source.toList = .ok t := by
  unfold parse at h
  split at h
  next hread => rwa [← Except.ok.inj h]
  next => cases h

/-- What is computed from the template of a source is computed from a template that was read. -/
theorem Template.exists_of_parse {α : Type} {source filename : String} {f : Template → α}
    {value : α} (h : (Template.parse source filename).toOption.map f = some value) :
    ∃ t, Template.parse source filename = .ok t ∧ f t = value := by
  obtain ⟨t, ht, hf⟩ := Option.map_eq_some_iff.mp h
  cases hp : Template.parse source filename with
  | error e => rw [hp] at ht; cases ht
  | ok t' =>
      rw [hp] at ht
      obtain rfl := Option.some.inj ht
      exact ⟨t', rfl, hf⟩

end Bracework
