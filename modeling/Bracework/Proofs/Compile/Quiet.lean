/-
Compiling — a compile that nobody looks on is the same in every monad.

What a compile comes to is settled by its source and by the plugins that take part:
`ResolvedOptions.treeOf` reads the source and applies the plugins one after the
other.  With the built-in compiler that is all there is to a compile, and in another
monad, with twins of the plugins, there is nothing more to it either.
-/
import Bracework.Proofs.Compile.Modes
import Bracework.Proofs.Plugins.Twins

namespace Bracework

/-! ## Options -/

section
variable {m : Type → Type} [Monad m]

/-- Options that ask for the same, with twins. -/
structure TwinOptions (o : CompileOptions m) (o' : CompileOptions Id) : Prop where
  isProduction : o.isProduction = o'.isProduction
  plugins : ∀ s, TwinLists (o.plugins.get s) (o'.plugins.get s)
  moduleName : o.moduleName = o'.moduleName
  strictMode : o.strictMode = o'.strictMode
  metadata : o.metadata = o'.metadata

/-- The plugins that take part, in the order in which they run. -/
def ResolvedOptions.lineup (o : ResolvedOptions m) : List (PluginRef m) :=
  o.plugins.flatten.map (·.plugin)

/-- Resolved options that say the same, with twins in the same places. -/
structure TwinResolved (o : ResolvedOptions m) (o' : ResolvedOptions Id) : Prop where
  context : o.context = o'.context
  lineup : TwinLists o.lineup o'.lineup

theorem TwinResolved.refl (o : ResolvedOptions Id) : TwinResolved o o where
  context := rfl
  lineup := List.forall₂_same.mpr fun _ _ => ⟨rfl, rfl, fun _ _ => rfl⟩

theorem TwinLists.firstOccurrences {ps : List (PluginRef m)} {qs : List (PluginRef Id)}
    (h : TwinLists ps qs) :
    TwinLists (Bracework.firstOccurrences ps) (Bracework.firstOccurrences qs) := by
  refine List.rel_foldl (P := TwinLists) (R := Twins) ?_ .nil h
  intro kept kept' hkept p q hp
  exact hkept.add hp

omit [Monad m] in
theorem plugins_selectPlugins (defaults registered adHoc : List (PluginRef m)) :
    (selectPlugins defaults registered adHoc).map (·.plugin) =
      defaults ++ registered ++ firstOccurrences adHoc := by
  simp only [selectPlugins, List.map_append, List.map_map, Function.comp_def, List.map_id']

/-- Options and registries with twins resolve to twins. -/
theorem TwinOptions.resolve [LawfulMonad m] {o : CompileOptions m} {o' : CompileOptions Id}
    (h : TwinOptions o o') {r : Registry m} {r' : Registry Id} (hr : TwinRegistries r r') :
    TwinResolved (o.resolve Catalogue.defaults r) (o'.resolve Catalogue.defaults r') where
  context := by
    show PluginContext.mk _ _ _ _ = PluginContext.mk _ _ _ _
    rw [CompileOptions.resolve, CompileOptions.resolve, h.moduleName, h.isProduction, h.strictMode,
      h.metadata]
  lineup := by
    rw [ResolvedOptions.lineup, ResolvedOptions.lineup, PerStage.flatten, PerStage.flatten,
      List.map_flatMap, List.map_flatMap]
    refine List.rel_flatMap (R := Eq) (List.forall₂_same.mpr fun _ _ => rfl) ?_
    rintro s _ rfl
    show TwinLists (((o.resolve Catalogue.defaults r).plugins.get s).map (·.plugin))
      (((o'.resolve Catalogue.defaults r').plugins.get s).map (·.plugin))
    rw [CompileOptions.resolve, CompileOptions.resolve, PerStage.get_ofFn, PerStage.get_ofFn,
      plugins_selectPlugins, plugins_selectPlugins, h.isProduction]
    exact List.rel_append (List.rel_append (Catalogue.defaults_twins s _) (hr s))
      (h.plugins s).firstOccurrences

end

/-! ## Compiles -/

/-- What a source comes to: it is read, and each plugin works on what the one before it left. -/
def ResolvedOptions.treeOf (o : ResolvedOptions Id) (source : String) :
    ExceptT CompileError Id Template := do
  let t ← (.mk (pure (Template.parse source (o.moduleName.getD SourceContext.defaultName))) :
    ExceptT SourceError Id Template).adapt .parse
  (PluginRef.applyAll o.lineup o.context t).adapt .plugin

/-- The program that a source comes to. -/
def ResolvedOptions.programOf (o : ResolvedOptions Id) (source : String) :
    ExceptT CompileError Id CompiledTemplate := do
  let t ← o.treeOf source
  (.mk (pure (t.compiled o)) : ExceptT GenerateFault Id CompiledTemplate).adapt .generate

theorem bind_eq_pure_iff {ε α β : Type} {x : ExceptT ε Id α} {k : α → ExceptT ε Id β} {b : β} :
    x >>= k = pure b ↔ ∃ a, x = pure a ∧ k a = pure b := by
  cases x using settled_cases with
  | error e =>
      constructor
      · intro h
        cases h
      · rintro ⟨a, h, -⟩
        cases h
  | ok a =>
      constructor
      · intro h
        exact ⟨a, rfl, h⟩
      · rintro ⟨a', h, hk⟩
        cases h
        exact hk

/-- A source comes to a program if it is parsed, every plugin completes and the program is
generated. -/
theorem ResolvedOptions.programOf_eq_pure_iff {o : ResolvedOptions Id} {source : String}
    {program : CompiledTemplate} :
    o.programOf source = pure program ↔
      ∃ parsed tree, Template.parse source (o.moduleName.getD SourceContext.defaultName) =
          .ok parsed ∧
        PluginRef.applyAll o.lineup o.context parsed = pure tree ∧
        tree.compiled o = .ok program := by
  have hok : ∀ {ε α : Type} {x : Except ε α} {a : α},
      (.mk (pure x) : ExceptT ε Id α) = pure a ↔ x = .ok a := Iff.rfl
  simp only [programOf, treeOf, bind_eq_pure_iff, adapt_eq_pure_iff, hok]
  constructor
  · rintro ⟨tree, ⟨parsed, hparsed, htree⟩, hprogram⟩
    exact ⟨parsed, tree, hparsed, htree, hprogram⟩
  · rintro ⟨parsed, tree, hparsed, htree, hprogram⟩
    exact ⟨tree, ⟨parsed, hparsed, htree⟩, hprogram⟩

theorem adapt_bind {ε ε' α β : Type} (x : ExceptT ε Id α) (f : α → ExceptT ε Id β) (g : ε → ε') :
    (x >>= f).adapt g = x.adapt g >>= fun a => (f a).adapt g := by
  cases x using settled_cases with
  | ok a => rfl
  | error e => rfl

namespace Compiler

variable {m : Type → Type} [Monad m] [LawfulMonad m] {c : Compiler m}

/-- The plugins run one after the other, whatever stages they are for. -/
theorem stages_eq_foldlM (c : Compiler m) (o : ResolvedOptions m) (stages : List Stage)
    (t : Template) :
    stages.foldlM (c.runStage o) t =
      (stages.flatMap o.plugins.get).foldlM (c.step o.context) t := by
  induction stages generalizing t with
  | nil => rfl
  | cons s stages ih =>
      rw [List.foldlM_cons, List.flatMap_cons, List.foldlM_append]
      exact bind_congr ih

theorem transformResolved_eq (c : Compiler m) (source : String) (o : ResolvedOptions m) :
    c.transformResolved source o = (do
      c.observe fun observer => observer.start o
      let t ← (c.read source o).adapt .parse
      o.plugins.flatten.foldlM (c.step o.context) t) := by
  rw [transformResolved]
  refine bind_congr fun _ => bind_congr fun t => ?_
  exact c.stages_eq_foldlM o Stage.all t

omit [LawfulMonad m] in
theorem observe_of_nil (h : c.observers = []) (hook : Observer m → Effect m Unit) :
    c.observe hook = pure () := by
  rw [observe, h]
  rfl

/-- Where nobody looks on, running plugins comes to applying their twins. -/
theorem foldlM_step_quiet (h : c.observers = []) (context : PluginContext)
    {ps : List (SelectedPlugin m)} {qs : List (PluginRef Id)}
    (hps : TwinLists (ps.map (·.plugin)) qs) (t : Template) :
    ps.foldlM (c.step context) t = quiet ((PluginRef.applyAll qs context t).adapt .plugin) := by
  have hstep : ∀ t p, c.step context t p = (p.plugin.applyOnce context t).adapt .plugin := by
    intro t p
    simp only [step, observe_of_nil h, pure_bind, bind_pure]
  induction ps generalizing qs t with
  | nil =>
      cases hps
      rfl
  | cons p ps ih =>
      cases hps with
      | cons hp hps =>
          rename_i q qs
          have hfirst : c.step context t p = quiet ((q.applyOnce context t).adapt .plugin) := by
            rw [hstep, hp.applyOnce, quiet_adapt]
          have hrest : (PluginRef.applyAll (q :: qs) context t).adapt CompileError.plugin =
              (q.applyOnce context t).adapt .plugin >>= fun t =>
                (PluginRef.applyAll qs context t).adapt .plugin := adapt_bind _ _ _
          rw [List.foldlM_cons, hfirst, hrest, quiet_bind]
          exact bind_congr fun t => ih hps t

/-- Where nobody looks on, the tree of a compile is what the source comes to. -/
theorem transformResolved_quiet {o : ResolvedOptions m} {o' : ResolvedOptions Id}
    (h : TwinResolved o o') (source : String) :
    (ofDefaults Catalogue.defaults).transformResolved source o = quiet (o'.treeOf source) := by
  have hname : o.moduleName = o'.moduleName := congrArg PluginContext.moduleName h.context
  have hread : (readTemplate source o).adapt CompileError.parse =
      quiet ((.mk (pure (Template.parse source
        (o'.moduleName.getD SourceContext.defaultName))) : ExceptT SourceError Id _).adapt
          .parse) := by
    rw [quiet_adapt, ← hname]
    rfl
  rw [transformResolved_eq, observe_of_nil rfl, pure_bind, ResolvedOptions.treeOf, quiet_bind,
    ← hread]
  refine bind_congr fun t => ?_
  rw [h.context]
  exact foldlM_step_quiet rfl _ h.lineup t

theorem transformResolved_builtin (source : String) (o : ResolvedOptions Id) :
    builtin.transformResolved source o = o.treeOf source :=
  transformResolved_quiet (.refl o) source

theorem precompile_builtin (registry : Registry Id) (source : String) (o : CompileOptions Id) :
    builtin.precompile registry source o =
      (do return (← (builtin.resolve registry o).programOf source).print) := by
  have htree := transformResolved_builtin source (builtin.resolve registry o)
  show (do
    let t ← builtin.transformResolved source (builtin.resolve registry o) >>= _
    return CompiledTemplate.print t) = _
  rw [htree]
  rfl

/-- Where nobody looks on, the tree of a compile is the same in every monad. -/
theorem transform_quiet {registry : Registry m} {registry' : Registry Id}
    (hregistry : TwinRegistries registry registry') {o : CompileOptions m}
    {o' : CompileOptions Id} (ho : TwinOptions o o') (source : String) :
    (ofDefaults Catalogue.defaults).transform registry source o =
      quiet (builtin.transform registry' source o') := by
  have htree : builtin.transform registry' source o' =
      (builtin.resolve registry' o').treeOf source := transformResolved_builtin source _
  rw [htree]
  exact transformResolved_quiet (ho.resolve hregistry) source

end Compiler

end Bracework
