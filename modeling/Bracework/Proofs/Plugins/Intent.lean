/-
Plugins — each plugin that rewrites makes its own change and no other.

`Edit.Means e r` says in words, place by place, what the plugin `e` is for: which paths
it respells, which values lose their quotes, which attributes and statements it drops,
and that all others stay.  This settles the rewriting `r`, and the plugin gives back the
template with `r` made everywhere, by recursion on the tree and without a walk.
-/
import Bracework.Proofs.Plugins.Edits
import Bracework.Proofs.Spans.Placement

namespace Bracework

/-! ## What the plugins are for -/

/-- What a plugin is for, at a path, at an attribute value, at an attribute and at a statement. -/
structure Edit.Means (e : Edit) (r : Rewriting) : Prop where
  respelled : e = .blockKeywords → ∀ span,
    r.path ⟨"hasBlock", span⟩ = ⟨"has-block", span⟩ ∧
      r.path ⟨"hasBlockParams", span⟩ = ⟨"has-block-params", span⟩
  spelled : ∀ p, (e = .blockKeywords → p.text ∉ ["hasBlock", "hasBlockParams"]) → r.path p = p
  unquoted : e = .quotedBindings → ∀ n, r.value (.concat [.mustache n]) = .mustache n
  quoted : ∀ x, (e = .quotedBindings → ∀ n, x ≠ .concat [.mustache n]) → r.value x = x
  dropsAttribute : ∀ a, r.keepsAttribute a = false ↔
    e = .testSelectors ∧ (a.name = "data-test" ∨ "data-test-".toList <+: a.name.toList)
  dropsStatement : ∀ s, r.keepsStatement s = false ↔
    e = .debugStatements ∧ ∃ n, s = .mustache n ∧
      (n.call.calleeText? = some "debugger" ∨ n.call.calleeText? = some "log")

theorem isTestSelector_iff {name : String} : isTestSelector name = true ↔
    name = "data-test" ∨ "data-test-".toList <+: name.toList := by
  rw [isTestSelector, Bool.or_eq_true, beq_iff_eq, List.isPrefixOf_iff_prefix]

theorem Statement.isDebug_iff {s : Statement} : s.isDebug = true ↔
    ∃ n, s = .mustache n ∧
      (n.call.calleeText? = some "debugger" ∨ n.call.calleeText? = some "log") := by
  cases s with
  | mustache n =>
      rw [isDebug, Bool.or_eq_true, beq_iff_eq, beq_iff_eq]
      exact ⟨fun h => ⟨n, rfl, h⟩, fun ⟨_, heq, h⟩ => Statement.mustache.inj heq ▸ h⟩
  | element e => exact ⟨nofun, fun ⟨_, h, _⟩ => nomatch h⟩
  | text t => exact ⟨nofun, fun ⟨_, h, _⟩ => nomatch h⟩
  | block b => exact ⟨nofun, fun ⟨_, h, _⟩ => nomatch h⟩
  | comment c => exact ⟨nofun, fun ⟨_, h, _⟩ => nomatch h⟩

theorem Path.withKeyword_of_not_mem {p : Path} (h : p.text ∉ ["hasBlock", "hasBlockParams"]) :
    p.withKeyword = p := by
  have hkeyword : blockKeyword? p.text = none := by
    unfold blockKeyword?
    split
    case h_1 ht => exact absurd (ht ▸ List.mem_cons_self) h
    case h_2 ht => exact absurd (ht ▸ List.mem_cons_of_mem _ List.mem_cons_self) h
    case h_3 => rfl
  rw [withKeyword, hkeyword, Option.getD_none]

theorem AttributeValue.unquoted_of_ne {x : AttributeValue} (h : ∀ n, x ≠ .concat [.mustache n]) :
    x.unquoted = x := by
  unfold unquoted
  split
  case h_1 n => exact absurd rfl (h n)
  case h_2 => rfl

/-- The change of a plugin is what the plugin is for. -/
theorem Edit.means_of (e : Edit) : e.Means (.of [e]) where
  respelled := by
    rintro rfl span
    exact ⟨rfl, rfl⟩
  spelled p h := by
    show (if _ then _ else _) = p
    split
    case isTrue he => exact Path.withKeyword_of_not_mem (h (List.mem_singleton.mp he).symm)
    case isFalse => rfl
  unquoted := by
    rintro rfl n
    rfl
  quoted x h := by
    show (if _ then _ else _) = x
    split
    case isTrue he => exact AttributeValue.unquoted_of_ne (h (List.mem_singleton.mp he).symm)
    case isFalse => rfl
  dropsAttribute a := by
    show (!([e].contains .testSelectors && isTestSelector a.name)) = false ↔ _
    rw [Bool.not_eq_false', Bool.and_eq_true, isTestSelector_iff, List.contains_iff_mem,
      List.mem_singleton, eq_comm]
  dropsStatement s := by
    show (!([e].contains .debugStatements && s.isDebug)) = false ↔ _
    rw [Bool.not_eq_false', Bool.and_eq_true, Statement.isDebug_iff, List.contains_iff_mem,
      List.mem_singleton, eq_comm]

/-! ## What the plugins are for is settled -/

/-- A path that is respelled is one of the two keywords. -/
theorem Path.isKeyword_of {e : Edit} {p : Path}
    (h : ¬ (e = .blockKeywords → p.text ∉ ["hasBlock", "hasBlockParams"])) :
    e = .blockKeywords ∧ (p = ⟨"hasBlock", p.span⟩ ∨ p = ⟨"hasBlockParams", p.span⟩) := by
  rw [Classical.not_imp, not_not, List.mem_cons, List.mem_singleton] at h
  obtain ⟨he, htext⟩ := h
  obtain ⟨text, span⟩ := p
  rcases htext with rfl | rfl
  · exact ⟨he, .inl rfl⟩
  · exact ⟨he, .inr rfl⟩

theorem Edit.Means.unique {e : Edit} {r r' : Rewriting} (h : e.Means r) (h' : e.Means r') :
    r = r' := by
  have hpath : r.path = r'.path := by
    funext p
    by_cases hspelled : e = .blockKeywords → p.text ∉ ["hasBlock", "hasBlockParams"]
    · rw [h.spelled p hspelled, h'.spelled p hspelled]
    · obtain ⟨he, hword | hword⟩ := p.isKeyword_of hspelled
      · rw [hword, (h.respelled he p.span).1, (h'.respelled he p.span).1]
      · rw [hword, (h.respelled he p.span).2, (h'.respelled he p.span).2]
  have hvalue : r.value = r'.value := by
    funext x
    by_cases hquoted : e = .quotedBindings → ∀ n, x ≠ .concat [.mustache n]
    · rw [h.quoted x hquoted, h'.quoted x hquoted]
    · simp only [Classical.not_imp, not_forall, not_not] at hquoted
      obtain ⟨he, n, rfl⟩ := hquoted
      rw [h.unquoted he, h'.unquoted he]
  have hattribute : r.keepsAttribute = r'.keepsAttribute := by
    funext a
    exact Bool.eq_iff_iff.mpr (not_iff_not.mp (by
      rw [Bool.not_eq_true, Bool.not_eq_true, h.dropsAttribute, h'.dropsAttribute]))
  have hstatement : r.keepsStatement = r'.keepsStatement := by
    funext s
    exact Bool.eq_iff_iff.mpr (not_iff_not.mp (by
      rw [Bool.not_eq_true, Bool.not_eq_true, h.dropsStatement, h'.dropsStatement]))
  cases r
  cases r'
  cases hpath
  cases hvalue
  cases hattribute
  cases hstatement
  rfl

/-! ## What a change leaves alone -/

/-- A rewriting that changes neither paths nor values leaves the nodes inside a tag or a curly mark
as they are. -/
theorem Rewriting.spares_of_inline {r : Rewriting} (hpath : ∀ p, r.path p = p)
    (hvalue : ∀ x, r.value x = x) {n : Node} (h : n.isInline = true) : r.Spares n := by
  obtain ⟨kind, value⟩ := n
  cases kind with
  | attr =>
      show ({ value with value := r.value value.value } : Attribute) = value
      rw [hvalue]
  | path => exact hpath value
  | text => rfl
  | mustache => rfl
  | subExpression => rfl
  | template => cases h
  | block => cases h
  | element => cases h
  | blockStatement => cases h
  | comment => cases h

namespace Edit.Means

variable {e : Edit} {r : Rewriting}

/-- A plugin that drops something leaves what it does not drop as it is, up to the statements. -/
theorem spares_of_inline (h : e.Means r) (he : e = .debugStatements ∨ e = .testSelectors)
    {n : Node} (hn : n.isInline = true) : r.Spares n := by
  refine Rewriting.spares_of_inline (fun p => h.spelled p ?_) (fun x => h.quoted x ?_) hn
  · rintro rfl
    exact absurd he (by decide)
  · rintro rfl
    exact absurd he (by decide)

/-- A path stays where it is. -/
theorem span_path (h : e.Means r) (p : Path) : (r.path p).span = p.span := by
  by_cases hspelled : e = .blockKeywords → p.text ∉ ["hasBlock", "hasBlockParams"]
  · rw [h.spelled p hspelled]
  · obtain ⟨he, hword | hword⟩ := p.isKeyword_of hspelled
    · rw [hword, (h.respelled he p.span).1]
    · rw [hword, (h.respelled he p.span).2]

/-- A node stays where it is, whatever becomes of it. -/
theorem span?_rewrite (h : e.Means r) (n : Node) : (n.rewrite r).span? = n.span? := by
  obtain ⟨kind, value⟩ := n
  cases kind with
  | path => exact congrArg some (h.span_path value)
  | element => cases value; rfl
  | blockStatement => cases value; rfl
  | block => rfl
  | template => rfl
  | attr => rfl
  | text => rfl
  | mustache => rfl
  | comment => rfl
  | subExpression => rfl

/-- What stays of a tree stays in order and where it is. -/
theorem spans_rewrite (h : e.Means r) (t : Template) :
    ((t.rewrite r).nodes.map Node.span?).Sublist (t.nodes.map Node.span?) := by
  have hspans : (t.nodes.map (Node.rewrite r)).map Node.span? = t.nodes.map Node.span? := by
    rw [List.map_map]
    exact List.map_congr_left fun n _ => h.span?_rewrite n
  rw [← hspans]
  exact (t.nodes_rewrite r).map _

end Edit.Means

/-! ## What the plugins come to -/

section
variable {m : Type → Type} [Monad m] [LawfulMonad m]

/-- On a valid template each plugin makes the one change that it is for, at every place of the tree.
What stays of the tree stays in order and where it is, and a plugin that drops attributes or
statements changes nothing inside the attributes and the mustaches that stay. -/
theorem Template.edit_exact {t : Template} (h : t.validate = .ok ()) (c : PluginContext)
    (e : Edit) :
    ∃ r : Rewriting, (∀ r', e.Means r' ↔ r' = r) ∧
      e.plugin.applyOnce c t = (pure (t.rewrite r) : ExceptT PluginError m Template) ∧
      ((t.rewrite r).nodes.map Node.span?).Sublist (t.nodes.map Node.span?) ∧
      (e = .debugStatements ∨ e = .testSelectors →
        (∀ a : Attribute, a.rewrite r = a) ∧ ∀ n : Mustache, n.rewrite r = n) := by
  have hmeans := e.means_of
  refine ⟨_, fun r' => ⟨fun h' => h'.unique hmeans, fun heq => heq ▸ hmeans⟩, ?_,
    hmeans.spans_rewrite t, fun he => ⟨fun a => ?_, fun n => ?_⟩⟩
  · rw [e.applyOnce_plugin, PluginRef.judge, t.validate_edited h [e]]
    rfl
  · exact Attribute.rewrite_of_spared fun x hx =>
      hmeans.spares_of_inline he (a.nodes_inline x hx)
  · exact Mustache.rewrite_of_spared fun x hx =>
      hmeans.spares_of_inline he (n.nodes_inline x hx)

end

/-- A template in which `log` is called in a statement, in a modifier, in a piece of an attribute
value, in parentheses and in a block. -/
def Template.logging : Template where
  body := [
    .element ⟨"p",
      [⟨"class", .concat [.text ⟨"x", .none⟩,
        .mustache { call := ⟨.path ⟨"log", .none⟩, [], []⟩ }], .none⟩],
      [{ call := ⟨.path ⟨"log", .none⟩, [], []⟩ }],
      [.mustache { call := ⟨.path ⟨"log", .none⟩, [.path ⟨"a", .none⟩], []⟩ },
       .mustache { call := ⟨.sub ⟨.path ⟨"log", .none⟩, [], []⟩ .none, [], []⟩ }], false, .none⟩,
    .block ⟨⟨.path ⟨"log", .none⟩, [], []⟩, ⟨[.text ⟨"t", .none⟩], []⟩,
      some ⟨[.mustache { call := ⟨.path ⟨"debugger", .none⟩, [], []⟩ }], []⟩, .none⟩]

theorem Template.edit_exact_logging :
    logging.validate = .ok () ∧
    ∃ t, Edit.debugStatements.plugin.applyOnce {} logging =
        (pure t : ExceptT PluginError Id Template) ∧
      t.print = "<p class=\"x\x7b\x7blog\x7d\x7d\" \x7b\x7blog\x7d\x7d>\x7b\x7b(log)\x7d\x7d</p>" ++
        "\x7b\x7b#log\x7d\x7dt\x7b\x7belse\x7d\x7d\x7b\x7b/log\x7d\x7d" := by
  have hvalid : logging.validate = .ok () := by decide +kernel
  obtain ⟨r, hr, happly, -, -⟩ := edit_exact (m := Id) hvalid {} .debugStatements
  obtain rfl := (hr _).mp (Edit.means_of .debugStatements)
  exact ⟨hvalid, _, happly, by decide +kernel⟩

end Bracework
