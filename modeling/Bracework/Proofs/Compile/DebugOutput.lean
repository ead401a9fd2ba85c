/-
Compiling — what a production compile writes out for debugging.

A production compile drops the mustaches that call `debugger` or `log`, in every list
of statements.  It knows them by their callee.  A mustache that is nothing but a call
in parentheses has no path for a callee and stays, and it is lowered to a call like
any other.  These are all that is left: the appends of `debugger` and `log` in a
production program are those of the mustaches in parentheses, one for one.
-/
import Bracework.Proofs.Compile.Modes
import Bracework.Proofs.Wire.Appended

namespace Bracework

/-! ## Paths for debugging -/

/-- Whether a path is one that is there for debugging only. -/
def isDebugPath (path : String) : Bool := path == "debugger" || path == "log"

/-- The path that an expression reads or calls, if it is one for debugging. -/
def WireExpression.debugPath? (e : WireExpression) : Option String := e.path?.filter isDebugPath

/-- The path that a mustache calls in parentheses, if it is one for debugging. -/
def Mustache.debugPath? (m : Mustache) : Option String := m.parenthesised?.filter isDebugPath

theorem isDebugPath_eq_false_iff {path : String} :
    isDebugPath path = false ↔ path ≠ "debugger" ∧ path ≠ "log" := by
  simp only [isDebugPath, Bool.or_eq_false_iff, beq_eq_false_iff_ne]

theorem filter_isDebugPath_eq_none {path? : Option String} :
    path?.filter isDebugPath = none ↔
      ∀ path, path? = some path → path ≠ "debugger" ∧ path ≠ "log" := by
  simp only [Option.filter_eq_none_iff, Bool.not_eq_true, isDebugPath_eq_false_iff]

/-! ## Mustaches after the changes -/

/-- The keywords are no paths for debugging. -/
theorem Path.filter_isDebugPath (edits : List Edit) (p : Path) :
    (some ((Rewriting.of edits).path p).text).filter isDebugPath =
      (some p.text).filter isDebugPath := by
  show (some (if _ then _ else _ : Path).text).filter isDebugPath = _
  split
  case isFalse => rfl
  case isTrue =>
    unfold withKeyword blockKeyword?
    split
    case h_1 h => rw [h]; rfl
    case h_2 h => rw [h]; rfl
    case h_3 => rfl

theorem Call.filter_isDebugPath (edits : List Edit) (c : Call) :
    (c.rewrite (.of edits)).calleeText?.filter isDebugPath =
      c.calleeText?.filter isDebugPath := by
  obtain ⟨callee, params, hash⟩ := c
  cases callee with
  | path p => exact p.filter_isDebugPath edits
  | literal l => rfl
  | sub c s => rfl

/-- A mustache is dropped for the path of its callee alone. -/
theorem Statement.isDebug_mustache (m : Mustache) :
    (Statement.mustache m).isDebug = m.call.calleeText?.any isDebugPath := by
  show (m.call.calleeText? == some "debugger" || m.call.calleeText? == some "log") = _
  cases m.call.calleeText? with
  | none => rfl
  | some text => rfl

theorem Rewriting.of_dropsMustaches (edits : List Edit) : (Rewriting.of edits).DropsMustaches := by
  intro s h
  have hboth : (!(edits.contains .debugStatements && s.isDebug)) = false := h
  have hdebug : s.isDebug = true := by
    simp only [Bool.not_eq_false', Bool.and_eq_true] at hboth
    exact hboth.2
  cases s with
  | mustache m => exact ⟨m, rfl⟩
  | element | text | block | comment => cases hdebug

/-- Of the mustaches that stay, those with a path for debugging have it in parentheses. -/
theorem Mustache.target?_of_kept {edits : List Edit} {m : Mustache}
    (h : (Statement.mustache m).isDebug = false) :
    (m.rewrite (.of edits)).target?.filter isDebugPath = m.debugPath? := by
  obtain ⟨⟨callee, params, hash⟩, trusting, span⟩ := m
  cases callee with
  | path p =>
      have hpath : isDebugPath p.text = false := (Statement.isDebug_mustache _).symm.trans h
      show (some ((Rewriting.of edits).path p).text).filter isDebugPath = none
      rw [p.filter_isDebugPath, Option.filter_some, hpath]
      rfl
  | literal l => rfl
  | sub c s => exact c.filter_isDebugPath edits

theorem Mustache.debugPath?_of_dropped {m : Mustache} (h : (Statement.mustache m).isDebug = true) :
    m.debugPath? = none := by
  obtain ⟨⟨callee, params, hash⟩, trusting, span⟩ := m
  cases callee with
  | path p => rfl
  | literal l => rfl
  | sub c s =>
      rw [Statement.isDebug_mustache] at h
      cases h

theorem Rewriting.debugPaths_mustaches {edits : List Edit} (h : .debugStatements ∈ edits)
    (ms : List Mustache) :
    ((Rewriting.of edits).mustaches ms).filterMap (fun m => m.target?.filter isDebugPath) =
      ms.filterMap Mustache.debugPath? := by
  have hkeeps : ∀ m, (Rewriting.of edits).keepsStatement (.mustache m) =
      !(Statement.mustache m).isDebug := by
    intro m
    show (!(edits.contains .debugStatements && _)) = _
    rw [List.contains_iff_mem.mpr h, Bool.true_and]
  induction ms with
  | nil => rfl
  | cons m ms ih =>
      rw [mustaches, List.filter_cons, hkeeps m]
      cases hdebug : (Statement.mustache m).isDebug with
      | true =>
          rw [List.filterMap_cons_none (Mustache.debugPath?_of_dropped hdebug)]
          exact ih
      | false =>
          show List.filterMap _ (m.rewrite _ :: (Rewriting.of edits).mustaches ms) = _
          rw [List.filterMap_cons, List.filterMap_cons, Mustache.target?_of_kept hdebug, ih]

/-! ## Production compiles -/

namespace Compiler

variable {source : String} {moduleName : Option String} {strictMode : Bool} {metadata : Named Json}

/-- When a production compile has a tree, and which one. -/
theorem transform_production_eq_ok_iff {t : Template} :
    builtin.transform .empty source (.plain true moduleName strictMode metadata) = pure t ↔
      ∃ t₀, Template.parse source (moduleName.getD SourceContext.defaultName) = .ok t₀ ∧
        (t₀.edited [.quotedBindings]).validate = .ok () ∧
        t₀.edited [.quotedBindings, .blockKeywords, .debugStatements] = t := by
  constructor
  · intro h
    have hrun := h
    rw [transform_builtin] at hrun
    cases hparse : Template.parse source (moduleName.getD SourceContext.defaultName) with
    | error e =>
        rw [hparse] at hrun
        cases hrun
    | ok t₀ =>
        rw [hparse] at hrun
        have hall := adapt_eq_pure_iff.mp hrun
        have hedits := Edit.applyAll_plugins_cons (m := Id) .quotedBindings
          [.blockKeywords, .debugStatements] ⟨moduleName, true, strictMode, metadata⟩ t₀
        have hplugins : Catalogue.defaults.plugins .ast true =
          ([.quotedBindings, .blockKeywords, .debugStatements] : List Edit).map
            (Edit.plugin (m := Id)) := rfl
        rw [hplugins, hedits] at hall
        cases hvalid : (t₀.edited [.quotedBindings]).validate with
        | error breach =>
            rw [hvalid] at hall
            cases hall
        | ok _ =>
            rw [hvalid] at hall
            exact ⟨t₀, rfl, hvalid, Except.ok.inj hall⟩
  · rintro ⟨t₀, hparse, hvalid, rfl⟩
    exact transform_production_eq_ok hparse hvalid

/-- The appends of `debugger` and `log` in a production program are those of the mustaches of
the source that call one of them in parentheses, in the same order.  So there are none exactly
if no mustache of the source does that. -/
theorem production_debugOutput {program : CompiledTemplate}
    (h : builtin.compile .empty source (.plain true moduleName strictMode metadata) =
      pure program) :
    ∃ t₀, Template.parse source (moduleName.getD SourceContext.defaultName) = .ok t₀ ∧
      program.block.appended.filterMap WireExpression.debugPath? =
        t₀.mustaches.filterMap Mustache.debugPath? ∧
      ((∀ e ∈ program.block.appended, ∀ path, e.path? = some path →
          path ≠ "debugger" ∧ path ≠ "log") ↔
        ∀ m ∈ t₀.mustaches, ∀ path, m.parenthesised? = some path →
          path ≠ "debugger" ∧ path ≠ "log") := by
  obtain ⟨t, htransform, hlower⟩ := compile_builtin_eq_ok h
  obtain ⟨t₀, hparse, -, rfl⟩ := transform_production_eq_ok_iff.mp htransform
  have hmustaches := Template.mustaches_rewrite
    (Rewriting.of_dropsMustaches [.quotedBindings, .blockKeywords, .debugStatements]) t₀
  have hpaths : program.block.appended.filterMap WireExpression.debugPath? =
      t₀.mustaches.filterMap Mustache.debugPath? :=
    calc program.block.appended.filterMap WireExpression.debugPath?
        = (program.block.appended.map (·.path?)).filterMap (Option.filter isDebugPath) :=
          List.filterMap_map.symm
      _ = (Rewriting.mustaches _ t₀.mustaches).filterMap
            (Option.filter isDebugPath ∘ (·.target?)) := by
          rw [Template.appended_of_lower hlower, List.filterMap_map, Template.edited, hmustaches]
      _ = t₀.mustaches.filterMap Mustache.debugPath? :=
          Rewriting.debugPaths_mustaches (by decide) t₀.mustaches
  have hempty := (congrArg (· = []) hpaths).to_iff
  simp only [List.filterMap_eq_nil_iff, WireExpression.debugPath?, Mustache.debugPath?,
    filter_isDebugPath_eq_none] at hempty
  exact ⟨t₀, hparse, hpaths, hempty⟩

/-- A source with the two calls as statements at every depth, and as calls in parentheses in some
of these places and in an attribute and an argument. -/
def callsSource : String :=
  "\x7b\x7blog a\x7d\x7d<p title=\x7b\x7b(log a)\x7d\x7d>\x7b\x7bdebugger\x7d\x7d" ++
    "\x7b\x7b(log b)\x7d\x7d</p>\x7b\x7b#if (log c)\x7d\x7d\x7b\x7b(debugger)\x7d\x7d" ++
    "\x7b\x7belse\x7d\x7d\x7b\x7b\x7blog d\x7d\x7d\x7d\x7b\x7b(logger)\x7d\x7d\x7b\x7b/if\x7d\x7d"

theorem production_debugOutput_calls :
    ∃ program t₀,
      builtin.compile .empty callsSource (.plain true none false []) = pure program ∧
      Template.parse callsSource SourceContext.defaultName = .ok t₀ ∧
      program.block.appended.map WireExpression.path? =
        [some "log", some "debugger", some "logger"] ∧
      t₀.mustaches.filterMap Mustache.debugPath? = ["log", "debugger"] := by
  have hpaths : (Except.toOption (builtin.compile .empty callsSource
      (.plain true none false [])).run).map (·.block.appended.map WireExpression.path?) =
        some [some "log", some "debugger", some "logger"] := by decide +kernel
  obtain ⟨program, h, hpaths⟩ := exists_of_toOption hpaths
  obtain ⟨t₀, hparse, hdebug, -⟩ := production_debugOutput h
  refine ⟨program, t₀, h, hparse, hpaths, ?_⟩
  calc t₀.mustaches.filterMap Mustache.debugPath?
      = (program.block.appended.map (·.path?)).filterMap (Option.filter isDebugPath) := by
        rw [← hdebug, List.filterMap_map]
        rfl
    _ = ["log", "debugger"] := by rw [hpaths]; rfl

/-- A call in parentheses is compiled to what the statement that is dropped would be. -/
theorem production_appends_log :
    ∃ program, builtin.compile .empty "\x7b\x7b(log x)\x7d\x7d" (.plain true none false []) =
        pure program ∧
      ∃ e ∈ program.block.appended, e.path? = some "log" := by
  have hpaths : (Except.toOption (builtin.compile .empty "\x7b\x7b(log x)\x7d\x7d"
      (.plain true none false [])).run).map (·.block.appended.map WireExpression.path?) =
        some [some "log"] := by decide +kernel
  obtain ⟨program, h, hpaths⟩ := exists_of_toOption hpaths
  have hmem : some "log" ∈ program.block.appended.map WireExpression.path? := by
    rw [hpaths]
    exact List.mem_singleton_self _
  obtain ⟨e, he, hpath⟩ := List.mem_map.mp hmem
  exact ⟨program, h, e, he, hpath⟩

end Compiler

end Bracework
