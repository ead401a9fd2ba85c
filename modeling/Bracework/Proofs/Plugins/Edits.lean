/-
Plugins — the plugins that rewrite a tree do not get in each other's way.

Four of the plugins that come with the compiler change a tree.  Each is a
rewriting of one node at a time, and so are any of them together:
`Rewriting.of edits` makes the changes of some of them in one go.  Making one set
of changes and then another makes the changes of both, whatever the two sets are,
so a sequence of these plugins comes to the changes of those that occur in it, and
neither their order nor their number counts.  No change breaks a rule of the tree.
-/
import Mathlib.Data.List.Basic
import Bracework.Plugin.Application
import Bracework.Plugin.Edits
import Bracework.Template.Printer
import Bracework.Proofs.Traversal.Performing
import Bracework.Proofs.Validity.Rules

namespace Bracework

/-! ## The edits -/

/-- The plugins that rewrite a tree. -/
inductive Edit where
  | quotedBindings
  | blockKeywords
  | debugStatements
  | testSelectors
deriving DecidableEq, Repr

def Edit.plugin {m : Type → Type} [Monad m] : Edit → PluginRef m
  | .quotedBindings => Bracework.quotedBindings
  | .blockKeywords => Bracework.blockKeywords
  | .debugStatements => stripDebugStatements
  | .testSelectors => Bracework.testSelectors

theorem AttributeValue.size_unquoted_le (x : AttributeValue) : x.unquoted.size ≤ x.size := by
  unfold unquoted
  split
  · simp only [size, AttributePart.size, List.foldr_cons, List.foldr_nil]
    omega
  · exact Nat.le_refl _

theorem AttributeValue.nodes_unquoted (x : AttributeValue) : x.unquoted.nodes = x.nodes := by
  unfold unquoted
  split
  · simp only [nodes, List.flatMap_cons, List.flatMap_nil, List.append_nil, AttributePart.nodes]
  · rfl

/-- The changes of some plugins, all made at once. -/
def Rewriting.of (edits : List Edit) : Rewriting where
  path p := if .blockKeywords ∈ edits then p.withKeyword else p
  value x := if .quotedBindings ∈ edits then x.unquoted else x
  keepsAttribute a := !(edits.contains .testSelectors && isTestSelector a.name)
  keepsStatement s := !(edits.contains .debugStatements && s.isDebug)
  size_value x := by
    split
    · exact x.size_unquoted_le
    · exact Nat.le_refl _
  nodes_value x := by
    split
    · exact x.nodes_unquoted ▸ .refl _
    · exact .refl _

/-- A template with the changes of some plugins. -/
def Template.edited (edits : List Edit) (t : Template) : Template := t.rewrite (.of edits)

/-! ## Each plugin makes its change -/

section
variable {m : Type → Type} [Monad m]

theorem quotedBindings_performs :
    (Visitor.handle {} .attr fun a => pure a.unquoted : Visitor m).Performs
      (.of [.quotedBindings]) := by
  intro k n
  cases k <;> cases n <;>
    simp [Visitor.handle, Visitor.enter, Rewriting.node, Rewriting.of, Attribute.unquoted]

theorem blockKeywords_performs :
    (Visitor.handle {} .path fun p => pure p.withKeyword : Visitor m).Performs
      (.of [.blockKeywords]) := by
  intro k n
  cases k <;> cases n <;>
    simp [Visitor.handle, Visitor.enter, Rewriting.node, Rewriting.of]

theorem testSelectors_performs :
    (Visitor.handle {} .element fun e => pure e.withoutTestSelectors : Visitor m).Performs
      (.of [.testSelectors]) := by
  intro k n
  cases k <;> cases n <;>
    simp [Visitor.handle, Visitor.enter, Rewriting.node, Rewriting.of,
      Element.withoutTestSelectors]

theorem debugStatements_performs :
    ({ any := some fun k n => pure (k.mapBody withoutDebugStatements n) } : Visitor m).Performs
      (.of [.debugStatements]) := by
  intro k n
  cases k <;> cases n <;>
    simp [Visitor.enter, Rewriting.node, Rewriting.of, Kind.mapBody, withoutDebugStatements]

variable [LawfulMonad m]

/-- A plugin that rewrites never fails by itself, and it makes its own change everywhere. -/
theorem Edit.work_plugin (e : Edit) (c : PluginContext) (t : Template) :
    e.plugin.work c t = (pure ((e.plugin (m := m)).name, .ok (t.edited [e])) : m _) := by
  cases e with
  | quotedBindings =>
      have h := (quotedBindings_performs (m := Effect m)).traverse t
      simp only [plugin, Bracework.quotedBindings, PluginRef.work, pure_bind, h, ExceptT.run_pure]
      rfl
  | blockKeywords =>
      have h := (blockKeywords_performs (m := Effect m)).traverse t
      simp only [plugin, Bracework.blockKeywords, PluginRef.work, pure_bind, h, ExceptT.run_pure]
      rfl
  | debugStatements =>
      have h := (debugStatements_performs (m := Effect m)).traverse t
      simp only [plugin, stripDebugStatements, Bracework.debugStatements, PluginRef.work, pure_bind,
        Template.visit, h, ExceptT.run_pure]
      rfl
  | testSelectors =>
      have h := (testSelectors_performs (m := Effect m)).traverse t
      simp only [plugin, Bracework.testSelectors, PluginRef.work, pure_bind, h, ExceptT.run_pure]
      rfl

theorem Edit.applyOnce_plugin (e : Edit) (c : PluginContext) (t : Template) :
    e.plugin.applyOnce c t =
      (.mk (pure (PluginRef.judge (e.plugin (m := m)).name (.ok (t.edited [e])))) :
        ExceptT PluginError m Template) := by
  rw [PluginRef.applyOnce, e.work_plugin, pure_bind]

end

/-! ## One change after another -/

/-- The change of the keywords neither makes nor touches a word that is none of them. -/
theorem Path.text_withKeyword_iff (p : Path) (word : String)
    (h : word ∉ ["hasBlock", "hasBlockParams", "has-block", "has-block-params"]) :
    p.withKeyword.text = word ↔ p.text = word := by
  simp only [List.mem_cons, List.not_mem_nil, or_false, not_or] at h
  obtain ⟨h₁, h₂, h₃, h₄⟩ := h
  unfold withKeyword blockKeyword?
  split
  case h_1 ht =>
    rw [ht]
    exact iff_of_false (Ne.symm h₃) (Ne.symm h₁)
  case h_2 ht =>
    rw [ht]
    exact iff_of_false (Ne.symm h₄) (Ne.symm h₂)
  case h_3 => exact Iff.rfl

theorem Path.withKeyword_withKeyword (p : Path) : p.withKeyword.withKeyword = p.withKeyword := by
  unfold withKeyword
  cases h : blockKeyword? p.text with
  | none => simp only [Option.getD_none, h]
  | some keyword =>
      have hkeyword : blockKeyword? keyword = none := by
        unfold blockKeyword? at h
        split at h <;> cases h <;> rfl
      simp only [Option.getD_some, hkeyword, Option.getD_none]

theorem AttributeValue.unquoted_unquoted (x : AttributeValue) :
    x.unquoted.unquoted = x.unquoted := by
  rcases x with t | n | (_ | ⟨t | n, _ | ⟨p, parts⟩⟩) <;> rfl

theorem AttributeValue.unquoted_rewriteParts (r : Rewriting) (x : AttributeValue) :
    (x.rewriteParts r).unquoted = x.unquoted.rewriteParts r := by
  rcases x with t | n | (_ | ⟨t | n, _ | ⟨p, parts⟩⟩) <;> rfl

/-- A statement is there for debugging whether or not its parts are changed. -/
theorem Statement.isDebug_rewrite (edits : List Edit) (s : Statement) :
    (s.rewrite (.of edits)).isDebug = s.isDebug := by
  cases s with
  | mustache n =>
      obtain ⟨⟨callee, params, hash⟩, trusting, span⟩ := n
      cases callee with
      | path p =>
          show ((some ((Rewriting.of edits).path p).text == some "debugger") ||
            (some ((Rewriting.of edits).path p).text == some "log")) =
              ((some p.text == some "debugger") || (some p.text == some "log"))
          have hdebugger := p.text_withKeyword_iff "debugger" (by decide)
          have hlog := p.text_withKeyword_iff "log" (by decide)
          simp only [Rewriting.of]
          split
          · rw [Bool.eq_iff_iff]
            simp only [Bool.or_eq_true, beq_iff_eq, Option.some.injEq, hdebugger, hlog]
          · rfl
      | literal l => rfl
      | sub c s => rfl
  | element e => rfl
  | text t => rfl
  | block b => rfl
  | comment c => rfl

/-- Some changes and then some others are the changes of both. -/
theorem Rewriting.of_composes (edits edits' : List Edit) :
    (Rewriting.of edits).Composes (.of edits') (.of (edits ++ edits')) where
  path p := by
    simp only [of, List.mem_append]
    by_cases h : Edit.blockKeywords ∈ edits <;> by_cases h' : Edit.blockKeywords ∈ edits' <;>
      simp only [h, h', if_true, if_false, or_true, or_false, p.withKeyword_withKeyword]
  value x := by
    simp only [of, List.mem_append]
    by_cases h : Edit.quotedBindings ∈ edits <;> by_cases h' : Edit.quotedBindings ∈ edits' <;>
      simp only [h, h', if_true, if_false, or_true, or_false, x.unquoted_unquoted]
  valueInside x := by
    show (if _ then _ else _) = (if _ then _ else _ : AttributeValue).rewriteParts _
    split
    · exact x.unquoted_rewriteParts _
    · rfl
  keepsAttribute a := by
    show (!(edits.contains .testSelectors && isTestSelector a.name) &&
      !(edits'.contains .testSelectors && isTestSelector a.name)) =
        !((edits ++ edits').contains .testSelectors && isTestSelector a.name)
    rw [List.contains_append]
    cases edits.contains .testSelectors <;> cases edits'.contains .testSelectors <;>
      cases isTestSelector a.name <;> rfl
  keepsStatement s := by
    show (!(edits.contains .debugStatements && s.isDebug) &&
      !(edits'.contains .debugStatements && (s.rewrite (.of edits)).isDebug)) =
        !((edits ++ edits').contains .debugStatements && s.isDebug)
    rw [s.isDebug_rewrite, List.contains_append]
    cases edits.contains .debugStatements <;> cases edits'.contains .debugStatements <;>
      cases s.isDebug <;> rfl

namespace Template

theorem edited_edited (edits edits' : List Edit) (t : Template) :
    (t.edited edits).edited edits' = t.edited (edits ++ edits') :=
  t.rewrite_rewrite (Rewriting.of_composes edits edits')

/-- What the changes come to depends on which they are, and not on the order or the number. -/
theorem edited_congr {edits edits' : List Edit} (h : ∀ e, e ∈ edits ↔ e ∈ edits')
    (t : Template) : t.edited edits = t.edited edits' := by
  have hcontains : ∀ e, edits.contains e = edits'.contains e := by
    intro e
    rw [Bool.eq_iff_iff, List.contains_iff_mem, List.contains_iff_mem]
    exact h e
  have hof : Rewriting.of edits = Rewriting.of edits' := by
    simp only [Rewriting.of, h, hcontains]
  rw [edited, edited, hof]

end Template

/-! ## The rules of the tree -/

/-- Whether a path is valid does not depend on where it stands. -/
theorem Path.isValid_span (text : String) (span span' : Span) :
    isValid ⟨text, span⟩ = isValid ⟨text, span'⟩ := rfl

theorem Path.isValid_withKeyword {p : Path} (h : p.isValid = true) :
    p.withKeyword.isValid = true := by
  unfold withKeyword blockKeyword?
  split
  · exact (isValid_span "has-block" p.span .none).trans (by decide +kernel)
  · exact (isValid_span "has-block-params" p.span .none).trans (by decide +kernel)
  · exact h

theorem isEmpty_keys_rewriteHash (r : Rewriting) (hash : List (String × Expression)) :
    ((rewriteHash r hash).all fun argument => !argument.1.isEmpty) =
      hash.all fun argument => !argument.1.isEmpty := by
  induction hash with
  | nil => rfl
  | cons argument rest ih =>
      obtain ⟨key, e⟩ := argument
      rw [rewriteHash, List.all_cons, List.all_cons, ih]

theorem Call.namesArguments_rewrite (r : Rewriting) (c : Call) :
    (c.rewrite r).namesArguments = c.namesArguments := by
  obtain ⟨callee, params, hash⟩ := c
  exact isEmpty_keys_rewriteHash r hash

theorem Call.calleeText?_isSome_rewrite (r : Rewriting) (c : Call) :
    (c.rewrite r).calleeText?.isSome = c.calleeText?.isSome := by
  obtain ⟨callee, params, hash⟩ := c
  cases callee <;> rfl

theorem AttributeValue.isInhabited_rewriteParts (r : Rewriting) (x : AttributeValue) :
    (x.rewriteParts r).isInhabited = x.isInhabited := by
  rcases x with t | n | (_ | ⟨p, parts⟩) <;> rfl

theorem AttributeValue.isInhabited_unquoted {x : AttributeValue} (h : x.isInhabited = true) :
    x.unquoted.isInhabited = true := by
  unfold unquoted
  split
  · rfl
  · exact h

/-- The changes keep the rule of every node. -/
theorem Node.isValid_rewrite (edits : List Edit) {n : Node} (h : n.isValid = true) :
    (n.rewrite (.of edits)).isValid = true := by
  obtain ⟨kind, value⟩ := n
  cases kind with
  | template => exact h
  | block => cases value; exact h
  | element =>
      obtain ⟨tag, attributes, modifiers, children, selfClosing, span⟩ := value
      obtain ⟨htag, hvoid⟩ := Bool.and_eq_true_iff.mp h
      refine Bool.and_eq_true_iff.mpr ⟨htag, ?_⟩
      cases children with
      | nil => exact hvoid
      | cons s ss =>
          simp only [Element.isVoid, List.isEmpty_cons, Bool.not_false, Bool.and_true,
            Bool.not_eq_true'] at hvoid
          simp only [rewrite, Kind.rewrite, Element.rewrite, Element.isVoid, hvoid, Bool.false_and,
            Bool.not_false]
  | attr =>
      obtain ⟨hname, hvalue⟩ := Bool.and_eq_true_iff.mp h
      refine Bool.and_eq_true_iff.mpr ⟨hname, ?_⟩
      show (AttributeValue.rewrite _ value.value).isInhabited = true
      rw [AttributeValue.rewrite, AttributeValue.isInhabited_rewriteParts]
      show (if _ then _ else _ : AttributeValue).isInhabited = true
      split
      · exact AttributeValue.isInhabited_unquoted hvalue
      · exact hvalue
  | text => rfl
  | mustache => exact (Call.namesArguments_rewrite _ value.call).trans h
  | blockStatement =>
      obtain ⟨c, program, inverse, span⟩ := value
      obtain ⟨hcallee, hnames⟩ := Bool.and_eq_true_iff.mp h
      exact Bool.and_eq_true_iff.mpr ⟨(Call.calleeText?_isSome_rewrite _ c).trans hcallee,
        (Call.namesArguments_rewrite _ c).trans hnames⟩
  | comment => rfl
  | path =>
      show (if _ then _ else _ : Path).isValid = true
      split
      · exact Path.isValid_withKeyword h
      · exact h
  | subExpression => exact (Call.namesArguments_rewrite _ value.call).trans h

theorem Template.validate_edited {t : Template} (h : t.validate = .ok ()) (edits : List Edit) :
    (t.edited edits).validate = .ok () := by
  rw [validate_eq_ok] at h ⊢
  exact everywhere_rewrite (.of edits) (fun _ => Node.isValid_rewrite edits) h

/-! ## Sequences of plugins -/

section
variable {m : Type → Type} [Monad m]

/-- Runs plugins one after the other, each on what the one before it gave back. -/
def PluginRef.applyAll (ps : List (PluginRef m)) (c : PluginContext) (t : Template) :
    ExceptT PluginError m Template :=
  ps.foldlM (fun t p => p.applyOnce c t) t

variable [LawfulMonad m]

theorem Template.edited_nil (t : Template) : t.edited [] = t := by
  refine rewrite_of_spared fun n _ => ?_
  obtain ⟨kind, value⟩ := n
  cases kind <;> cases value <;>
    simp [Rewriting.Spares, Rewriting.node, Rewriting.of]

theorem Edit.applyAll_plugins {t : Template} (h : t.validate = .ok ()) (c : PluginContext)
    (edits : List Edit) :
    PluginRef.applyAll (edits.map Edit.plugin) c t =
      (pure (t.edited edits) : ExceptT PluginError m Template) := by
  induction edits generalizing t with
  | nil =>
      rw [t.edited_nil]
      rfl
  | cons e edits ih =>
      have hvalid := t.validate_edited h [e]
      have hfirst : e.plugin.applyOnce c t =
          (pure (t.edited [e]) : ExceptT PluginError m Template) := by
        rw [e.applyOnce_plugin, PluginRef.judge, hvalid]
        rfl
      have hboth : (t.edited [e]).edited edits = t.edited (e :: edits) := t.edited_edited [e] edits
      rw [List.map_cons, PluginRef.applyAll, List.foldlM_cons, hfirst, pure_bind, ← hboth]
      exact ih hvalid

/-- The first plugin of a sequence settles whether the tree keeps the rules. -/
theorem Edit.applyAll_plugins_cons (e : Edit) (edits : List Edit) (c : PluginContext)
    (t : Template) :
    PluginRef.applyAll ((e :: edits).map Edit.plugin) c t =
      (match (t.edited [e]).validate with
        | .ok () => pure (t.edited (e :: edits))
        | .error breach => .mk (pure (.error (.invalid (e.plugin (m := m)).name breach))) :
          ExceptT PluginError m Template) := by
  have hboth : (t.edited [e]).edited edits = t.edited (e :: edits) := t.edited_edited [e] edits
  rw [List.map_cons, PluginRef.applyAll, List.foldlM_cons, e.applyOnce_plugin, PluginRef.judge]
  cases h : (t.edited [e]).validate with
  | ok _ =>
      rw [← hboth]
      exact (pure_bind _ _).trans (Edit.applyAll_plugins h c edits)
  | error breach =>
      apply ExceptT.ext
      simp only [ExceptT.run_bind, ExceptT.run_mk, pure_bind]

/-- Plugins that rewrite never fail on a valid template, in whatever order they run and however
often each does.  Every tree on the way is valid, and the last one has the changes of the plugins
that took part, which depend on their set alone. -/
theorem Template.edits_confluent {t : Template} (h : t.validate = .ok ()) (c : PluginContext)
    (edits : List Edit) :
    PluginRef.applyAll (edits.map Edit.plugin) c t =
      (pure (t.edited edits) : ExceptT PluginError m Template) ∧
    (∀ before, before <+: edits →
      PluginRef.applyAll (before.map Edit.plugin) c t =
        (pure (t.edited before) : ExceptT PluginError m Template) ∧
      (t.edited before).validate = .ok ()) ∧
    ∀ edits' : List Edit, (∀ e, e ∈ edits' ↔ e ∈ edits) →
      PluginRef.applyAll (edits'.map Edit.plugin) c t =
        (PluginRef.applyAll (edits.map Edit.plugin) c t : ExceptT PluginError m Template) := by
  refine ⟨Edit.applyAll_plugins h c edits, ?_, ?_⟩
  · intro before _
    exact ⟨Edit.applyAll_plugins h c before, validate_edited h before⟩
  · intro edits' hsame
    rw [Edit.applyAll_plugins h c edits', Edit.applyAll_plugins h c edits, edited_congr hsame]

end

/-- A template in which every plugin that rewrites finds something, some of it in what another
one changes or drops. -/
def Template.mixed : Template where
  body := [
    .element ⟨"p",
      [⟨"class", .concat [.mustache { call := ⟨.path ⟨"hasBlock", .none⟩, [], []⟩ }], .none⟩,
       ⟨"data-test-row", .concat [.mustache { call := ⟨.path ⟨"i", .none⟩, [], []⟩ }], .none⟩], [],
      [.mustache { call := ⟨.path ⟨"log", .none⟩, [.path ⟨"hasBlock", .none⟩], []⟩ },
       .text ⟨"x", .none⟩], false, .none⟩,
    .block ⟨⟨.path ⟨"if", .none⟩, [.path ⟨"hasBlockParams", .none⟩], []⟩,
      ⟨[.mustache { call := ⟨.path ⟨"debugger", .none⟩, [], []⟩ }], []⟩, none, .none⟩]

theorem Template.edits_confluent_mixed :
    mixed.validate = .ok () ∧
    PluginRef.applyAll (m := Id)
      ([.debugStatements, .testSelectors, .blockKeywords, .debugStatements, .quotedBindings].map
        Edit.plugin) {} mixed =
      PluginRef.applyAll
        ([.quotedBindings, .blockKeywords, .testSelectors, .debugStatements].map Edit.plugin) {}
        mixed ∧
    (mixed.edited [.quotedBindings, .blockKeywords, .testSelectors, .debugStatements]).print =
      "<p class=\x7b\x7bhas-block\x7d\x7d>x</p>" ++
        "\x7b\x7b#if has-block-params\x7d\x7d\x7b\x7b/if\x7d\x7d" := by
  have hvalid : mixed.validate = .ok () := by decide +kernel
  refine ⟨hvalid, (edits_confluent hvalid {} _).2.2 _ ?_, by decide +kernel⟩
  intro e
  cases e <;> decide

end Bracework
