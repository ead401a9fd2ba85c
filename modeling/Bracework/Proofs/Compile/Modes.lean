/-
Compiling — the two modes of the built-in set.

With nothing registered and nothing added, a compile runs the plugins of the
built-in set of its mode.  Both modes begin with the same two changes.  A debug
compile then looks at the tree three times, a production compile makes one change
more, and so the tree of a production compile is that of a debug compile without
the statements that are there for debugging.
-/
import Bracework.Compile.Compiler
import Bracework.Plugin.Catalogue
import Bracework.Proofs.Plugins.Assertions
import Bracework.Proofs.Plugins.Edits
import Bracework.Proofs.Spans.Placement

namespace Bracework

/-! ## Dropping statements -/

/-- The rewriting that drops some statements, wherever they stand, and changes nothing else. -/
def Rewriting.dropping (drops : Statement → Bool) : Rewriting where
  path p := p
  value x := x
  keepsAttribute _ := true
  keepsStatement s := !drops s
  size_value _ := Nat.le_refl _
  nodes_value _ := .refl _

/-- A template without some statements, wherever they stand. -/
def Template.without (drops : Statement → Bool) (t : Template) : Template :=
  t.rewrite (.dropping drops)

theorem Template.edited_debugStatements (t : Template) :
    t.edited [.debugStatements] = t.without Statement.isDebug := rfl

/-- Nothing is dropped where there is nothing to drop. -/
theorem Template.without_eq_self {drops : Statement → Bool} {t : Template}
    (h : ∀ n ∈ t.nodes, ∀ s ∈ n.body, drops s = false) : t.without drops = t := by
  refine rewrite_of_spared fun n hn => ?_
  have hbody : (n.body.filter fun s => !drops s) = n.body := by
    rw [List.filter_eq_self]
    intro s hs
    rw [h n hn s hs]
    rfl
  obtain ⟨kind, value⟩ := n
  cases kind <;> cases value <;>
    simp_all [Rewriting.Spares, Rewriting.node, Rewriting.dropping, Node.body, Kind.body]

/-! ## Compiles with the built-in set -/

/-- The compiler with the built-in set and nobody looking on. -/
def Compiler.builtin : Compiler Id := .ofDefaults Catalogue.defaults

/-- The options of a compile that no plugin is added to. -/
def CompileOptions.plain (isProduction : Bool) (moduleName : Option String) (strictMode : Bool)
    (metadata : Named Json) : CompileOptions Id where
  isProduction := isProduction
  moduleName := moduleName
  strictMode := strictMode
  metadata := metadata

namespace Compiler

/-- Nobody looks on, so a plugin is run and that is all. -/
theorem step_ofDefaults (d : DefaultSet Id) (c : PluginContext) (t : Template)
    (p : SelectedPlugin Id) :
    (ofDefaults d).step c t p = (p.plugin.applyOnce c t).adapt .plugin := by
  show (p.plugin.applyOnce c t).adapt CompileError.plugin >>= (fun t => pure t) = _
  exact bind_pure _

theorem runStage_ofDefaults (d : DefaultSet Id) (o : ResolvedOptions Id) (t : Template)
    (s : Stage) :
    (ofDefaults d).runStage o t s =
      (PluginRef.applyAll ((o.plugins.get s).map (·.plugin)) o.context t).adapt .plugin := by
  rw [runStage, PluginRef.applyAll]
  generalize o.plugins.get s = ps
  induction ps generalizing t with
  | nil => rfl
  | cons p ps ih =>
      rw [List.map_cons, List.foldlM_cons, List.foldlM_cons, step_ofDefaults]
      cases h : (p.plugin.applyOnce o.context t).run with
      | error e =>
          have h' : p.plugin.applyOnce o.context t = .mk (.error e) := h
          rw [h']
          rfl
      | ok t' =>
          have h' : p.plugin.applyOnce o.context t = .mk (.ok t') := h
          rw [h']
          exact ih t'

variable (source : String) (moduleName : Option String) (strictMode : Bool) (metadata : Named Json)

theorem transform_builtin (isProduction : Bool) :
    builtin.transform .empty source (.plain isProduction moduleName strictMode metadata) =
      match Template.parse source (moduleName.getD SourceContext.defaultName) with
      | .error e => throw (.parse e)
      | .ok t => (PluginRef.applyAll (Catalogue.defaults.plugins .ast isProduction)
          ⟨moduleName, isProduction, strictMode, metadata⟩ t).adapt .plugin := by
  let o := builtin.resolve .empty (.plain isProduction moduleName strictMode metadata)
  have hplugins : (o.plugins.get .ast).map (·.plugin) =
      Catalogue.defaults.plugins .ast isProduction := by
    cases isProduction <;> rfl
  have hread : builtin.read source o =
      .mk (pure (Template.parse source (moduleName.getD SourceContext.defaultName))) := rfl
  show builtin.transformResolved source o = _
  rw [transformResolved, hread]
  cases Template.parse source (moduleName.getD SourceContext.defaultName) with
  | error e => rfl
  | ok t =>
      rw [← hplugins]
      exact (bind_pure _).trans (runStage_ofDefaults _ o t .ast)

/-- Generating a program does not look at the mode. -/
theorem compile_builtin (isProduction : Bool) :
    builtin.compile .empty source (.plain isProduction moduleName strictMode metadata) = (do
      let t ← builtin.transform .empty source (.plain isProduction moduleName strictMode metadata)
      .mk (pure ((t.compiled (m := Id) ⟨false, {}, moduleName, strictMode, metadata⟩).mapError
        .generate))) := rfl

end Compiler

/-- On a tree that keeps the rules, assertions pass exactly if none has a complaint, and then
the tree is as it was. -/
theorem Assertion.applyAll_plugins_eq_ok {t t' : Template} (h : t.validate = .ok ())
    (c : PluginContext) (as : List Assertion) :
    (PluginRef.applyAll (as.map Assertion.plugin) c t : ExceptT PluginError Id Template) = pure t' ↔
      (∀ a ∈ as, t.complaint? a = none) ∧ t = t' := by
  induction as with
  | nil =>
      refine ⟨fun hpure => ⟨List.forall_mem_nil _, Except.ok.inj hpure⟩, ?_⟩
      rintro ⟨-, rfl⟩
      rfl
  | cons a as ih =>
      rw [List.map_cons, PluginRef.applyAll, List.foldlM_cons, a.applyOnce_plugin,
        Template.asserted, List.forall_mem_cons, and_assoc]
      cases hcomplaint : t.complaint? a with
      | some complaint =>
          constructor
          · intro h
            cases h
          · rintro ⟨⟨⟩, -⟩
      | none =>
          rw [PluginRef.judge, h]
          exact ih.trans ⟨fun h => ⟨rfl, h⟩, fun h => h.2⟩

/-- Translating errors neither makes nor loses a result. -/
theorem adapt_eq_pure_iff {ε ε' α : Type} {x : ExceptT ε Id α} {g : ε → ε'} {a : α} :
    x.adapt g = pure a ↔ x = pure a := by
  cases h : x.run with
  | error e =>
      have hx : x = .mk (.error e) := h
      rw [hx]
      constructor <;> intro h <;> cases h
  | ok b =>
      have hx : x = .mk (.ok b) := h
      rw [hx]
      show (Except.ok b : Except ε' α) = .ok a ↔ (Except.ok b : Except ε α) = .ok a
      rw [Except.ok.injEq, Except.ok.injEq]

/-- A computation that comes to a value with some property comes to a value. -/
theorem exists_of_toOption {ε α β : Type} {x : ExceptT ε Id α} {f : α → β} {b : β}
    (h : (Except.toOption x.run).map f = some b) : ∃ a, x = pure a ∧ f a = b := by
  cases hx : x.run with
  | error e =>
      rw [hx] at h
      cases h
  | ok a =>
      rw [hx] at h
      exact ⟨a, hx, Option.some.inj h⟩

namespace Compiler

variable {source : String} {moduleName : Option String} {strictMode : Bool} {metadata : Named Json}

/-- When a debug compile has a tree, and which one. -/
theorem transform_debug_eq_ok_iff {t : Template} :
    builtin.transform .empty source (.plain false moduleName strictMode metadata) = pure t ↔
      ∃ t₀, Template.parse source (moduleName.getD SourceContext.defaultName) = .ok t₀ ∧
        (t₀.edited [.quotedBindings]).validate = .ok () ∧
        t₀.edited [.quotedBindings, .blockKeywords] = t ∧ ∀ a, t.complaint? a = none := by
  let edits : List Edit := [.quotedBindings, .blockKeywords]
  let assertions : List Assertion :=
    [.reservedArguments, .conditionalArguments, .debuggerArguments]
  have hplugins : Catalogue.defaults.plugins .ast false =
      edits.map (Edit.plugin (m := Id)) ++ assertions.map Assertion.plugin := rfl
  have hall : ∀ a, a ∈ assertions := by
    intro a
    cases a <;> decide
  rw [transform_builtin]
  cases Template.parse source (moduleName.getD SourceContext.defaultName) with
  | error e =>
      constructor
      · intro h
        cases h
      · rintro ⟨_, ⟨⟩, _⟩
  | ok t₀ =>
      refine adapt_eq_pure_iff.trans ?_
      rw [hplugins, PluginRef.applyAll, List.foldlM_append]
      have hedits := Edit.applyAll_plugins_cons (m := Id) .quotedBindings [.blockKeywords]
        ⟨moduleName, false, strictMode, metadata⟩ t₀
      rw [PluginRef.applyAll] at hedits
      rw [hedits]
      cases hvalid : (t₀.edited [.quotedBindings]).validate with
      | error breach =>
          constructor
          · intro h
            cases h
          · rintro ⟨t₁, ⟨⟩, h, -⟩
            cases hvalid.symm.trans h
      | ok _ =>
          have hvalid' : (t₀.edited edits).validate = .ok () := by
            have hboth := t₀.edited_edited [.quotedBindings] [.blockKeywords]
            exact hboth ▸ Template.validate_edited hvalid [.blockKeywords]
          refine (Assertion.applyAll_plugins_eq_ok hvalid' _ assertions).trans ⟨?_, ?_⟩
          · rintro ⟨hnone, rfl⟩
            exact ⟨t₀, rfl, hvalid, rfl, fun a => hnone a (hall a)⟩
          · rintro ⟨t₁, ⟨⟩, -, rfl, hnone⟩
            exact ⟨fun a _ => hnone a, rfl⟩

/-- A production compile makes its changes, once the first has left a tree that keeps the rules. -/
theorem transform_production_eq_ok {t₀ : Template}
    (hparse : Template.parse source (moduleName.getD SourceContext.defaultName) = .ok t₀)
    (hvalid : (t₀.edited [.quotedBindings]).validate = .ok ()) :
    builtin.transform .empty source (.plain true moduleName strictMode metadata) =
      pure (t₀.edited [.quotedBindings, .blockKeywords, .debugStatements]) := by
  have hplugins : Catalogue.defaults.plugins .ast true =
      ([.quotedBindings, .blockKeywords, .debugStatements] : List Edit).map
        (Edit.plugin (m := Id)) := rfl
  rw [transform_builtin, hparse, hplugins]
  refine adapt_eq_pure_iff.mpr ?_
  rw [Edit.applyAll_plugins_cons, hvalid]

/-- A program is generated from the tree that the plugins left. -/
theorem compile_builtin_eq_ok {isProduction : Bool} {program : CompiledTemplate}
    (h : builtin.compile .empty source (.plain isProduction moduleName strictMode metadata) =
      pure program) :
    ∃ t, builtin.transform .empty source (.plain isProduction moduleName strictMode metadata) =
      pure t ∧ t.lower = .ok program.block := by
  rw [compile_builtin] at h
  cases htransform : (builtin.transform .empty source
      (.plain isProduction moduleName strictMode metadata)).run with
  | error e =>
      have hrun : builtin.transform .empty source
        (.plain isProduction moduleName strictMode metadata) = throw e := htransform
      rw [hrun] at h
      cases h
  | ok t =>
      have hrun : builtin.transform .empty source
        (.plain isProduction moduleName strictMode metadata) = pure t := htransform
      rw [hrun, pure_bind, Template.compiled] at h
      cases hlower : t.lower with
      | error fault =>
          rw [hlower] at h
          cases h
      | ok b =>
          rw [hlower] at h
          cases h
          exact ⟨t, hrun, hlower⟩

/-- Where a debug compile has a tree, a production compile has the same tree without the
statements that are there for debugging.  If there are none, the two modes have the same
program, or the same failure to generate one. -/
theorem production_of_debug {t : Template}
    (h : builtin.transform .empty source (.plain false moduleName strictMode metadata) = pure t) :
    builtin.transform .empty source (.plain true moduleName strictMode metadata) =
      pure (t.without Statement.isDebug) ∧
    ((∀ n ∈ t.nodes, ∀ s ∈ n.body, s.isDebug = false) →
      builtin.compile .empty source (.plain true moduleName strictMode metadata) =
        builtin.compile .empty source (.plain false moduleName strictMode metadata)) := by
  obtain ⟨t₀, hparse, hvalid, hedited, -⟩ := transform_debug_eq_ok_iff.mp h
  have hproduction : builtin.transform .empty source (.plain true moduleName strictMode metadata) =
      pure (t.without Statement.isDebug) := by
    rw [transform_production_eq_ok hparse hvalid, ← hedited, ← Template.edited_debugStatements,
      Template.edited_edited]
    rfl
  refine ⟨hproduction, fun hnone => ?_⟩
  rw [compile_builtin, compile_builtin, hproduction, h, Template.without_eq_self hnone]

/-- A source with statements for debugging in every kind of list. -/
def debugSource : String :=
  "\x7b\x7blog a\x7d\x7d<p title=\"\x7b\x7blog\x7d\x7d\">\x7b\x7bdebugger\x7d\x7dx</p>" ++
    "\x7b\x7b#if b\x7d\x7d\x7b\x7blog b\x7d\x7d1" ++
    "\x7b\x7belse\x7d\x7d\x7b\x7blog c\x7d\x7d\x7b\x7b/if\x7d\x7d"

theorem production_of_debug_lists :
    ∃ t, builtin.transform .empty debugSource (.plain false none false []) = pure t ∧
      builtin.transform .empty debugSource (.plain true none false []) =
        pure (t.without Statement.isDebug) ∧
      (t.without Statement.isDebug).print =
        "<p title=\x7b\x7blog\x7d\x7d>x</p>" ++
          "\x7b\x7b#if b\x7d\x7d1\x7b\x7belse\x7d\x7d\x7b\x7b/if\x7d\x7d" := by
  have hprint : (Except.toOption (builtin.transform .empty debugSource
      (.plain false none false [])).run).map (fun t => (t.without Statement.isDebug).print) =
        some ("<p title=\x7b\x7blog\x7d\x7d>x</p>" ++
          "\x7b\x7b#if b\x7d\x7d1\x7b\x7belse\x7d\x7d\x7b\x7b/if\x7d\x7d") := by decide +kernel
  obtain ⟨t, h, hprint⟩ := exists_of_toOption hprint
  exact ⟨t, h, (production_of_debug h).1, hprint⟩

end Compiler

end Bracework
