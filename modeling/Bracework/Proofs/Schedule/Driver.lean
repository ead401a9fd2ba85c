/-
Schedule — a compile performs its schedule.

A program carries a list of events if each of its runs is a run of them: with
the same result, and through the same states.  Programs that follow each other
carry the events of both, so what a compile carries is put together from what
its hooks, its reader, its plugins and its generator do, by induction on the
observers, the plugins of a stage and the stages.
-/
import Bracework.Proofs.Schedule.Events

namespace Bracework

/-! ## Programs that may fail and share a state -/

section
variable {σ ε ε' α β : Type} {x : ExceptT ε (StateM σ) α} {s s' : σ}

theorem run_bind_of_eq {x : StateM σ α} {a : α} (h : x.run s = (a, s')) (k : α → StateM σ β) :
    (x >>= k).run s = (k a).run s' := by
  rw [StateT.run_bind, h]
  rfl

theorem run_bind_of_ok {a : α} (h : x.run.run s = (.ok a, s'))
    (k : α → ExceptT ε (StateM σ) β) : (x >>= k).run.run s = (k a).run.run s' := by
  rw [ExceptT.run_bind, StateT.run_bind, h]
  rfl

theorem run_bind_of_error {e : ε} (h : x.run.run s = (.error e, s'))
    (k : α → ExceptT ε (StateM σ) β) : (x >>= k).run.run s = (.error e, s') := by
  rw [ExceptT.run_bind, StateT.run_bind, h]
  rfl

theorem run_adapt {r : Except ε α} (h : x.run.run s = (r, s')) (g : ε → ε') :
    (x.adapt g).run.run s = (r.mapError g, s') := by
  show ((x.run.run s).1.mapError g, (x.run.run s).2) = _
  rw [h]

/-- What a program gives back, it gives back after its first step did. -/
theorem run_bind_eq_ok {k : α → ExceptT ε (StateM σ) β} {b : β}
    (h : (x >>= k).run.run s = (.ok b, s')) :
    ∃ a t, x.run.run s = (.ok a, t) ∧ (k a).run.run t = (.ok b, s') := by
  rcases hx : x.run.run s with ⟨_ | a, t⟩
  · exact nomatch (run_bind_of_error hx k).symm.trans h
  · exact ⟨a, t, rfl, (run_bind_of_ok hx k).symm.trans h⟩

theorem run_adapt_eq_ok {g : ε → ε'} {a : α} (h : (x.adapt g).run.run s = (.ok a, s')) :
    x.run.run s = (.ok a, s') := by
  rcases hx : x.run.run s with ⟨_ | a', t⟩
  · exact nomatch (run_adapt hx g).symm.trans h
  · cases (run_adapt hx g).symm.trans h
    rfl

end

/-! ## Programs and events -/

section
variable {σ α β : Type} (c : Compiler (StateM σ)) (source : String)
  (o : ResolvedOptions (StateM σ))

/-- The runs of a program are runs of some events; what the program returns is what they
come to. -/
def Carries (es : List (Event σ)) (p : Progress σ) (x : ExceptT CompileError (StateM σ) α)
    (f : α → Progress σ) : Prop :=
  ∀ s r s', x.run.run s = (r, s') → Performs c source o es p s (r.map f) s'

variable {c source o}

theorem Carries.pure {f : α → Progress σ} (a : α) : Carries c source o [] (f a) (pure a) f := by
  intro s r s' h
  cases h
  exact .nil

theorem Carries.bind {es fs : List (Event σ)} {p : Progress σ} {f : α → Progress σ}
    {g : β → Progress σ} {x : ExceptT CompileError (StateM σ) α}
    {k : α → ExceptT CompileError (StateM σ) β} (hx : Carries c source o es p x f)
    (hk : ∀ a, Carries c source o fs (f a) (k a) g) :
    Carries c source o (es ++ fs) p (x >>= k) g := by
  intro s r s' h
  rcases hrun : x.run.run s with ⟨e | a, t⟩
  case error =>
    cases (run_bind_of_error hrun k).symm.trans h
    exact (hx _ _ _ hrun).append_stop fs
  case ok =>
    rw [run_bind_of_ok hrun k] at h
    exact (hx _ _ _ hrun).append (hk a _ _ _ h)

/-- A program may return what its events come to. -/
theorem Carries.returned {es : List (Event σ)} {p : Progress σ} {f : α → Progress σ}
    {x : ExceptT CompileError (StateM σ) α} (hx : Carries c source o es p x f) :
    Carries c source o es p (do return f (← x)) id := by
  rw [← List.append_nil es]
  exact hx.bind fun a => .pure (f := id) (f a)

/-- A step that is a single event. -/
theorem Carries.single {ε : Type} {e : Event σ} {p : Progress σ} {f : α → Progress σ}
    {x : ExceptT ε (StateM σ) α} {g : ε → CompileError}
    (hok : ∀ {s a s'}, x.run.run s = (.ok a, s') → Happens c source o e p s (.ok (f a)) s')
    (hfails : ∀ {s x' s'}, x.run.run s = (.error x', s') →
      Happens c source o e p s (.error (g x')) s') :
    Carries c source o [e] p (x.adapt g) f := by
  intro s r s' h
  rcases hrun : x.run.run s with ⟨x' | a, t⟩
  case error =>
    cases (run_adapt hrun g).symm.trans h
    exact .stop (hfails hrun)
  case ok =>
    cases (run_adapt hrun g).symm.trans h
    exact .cons (hok hrun) .nil

/-! ## Hooks -/

theorem observe_carries {p : Progress σ} {event : Observer (StateM σ) → Event σ}
    {hook : Observer (StateM σ) → Effect (StateM σ) Unit}
    (hok : ∀ {ob s s'}, (hook ob).run.run s = (.ok (), s') →
      Happens c source o (event ob) p s (.ok p) s')
    (hfails : ∀ {ob s cause s'}, (hook ob).run.run s = (.error cause, s') →
      Happens c source o (event ob) p s (.error (.observer ob.name cause)) s') :
    Carries c source o (c.observers.map event) p (c.observe hook) fun _ => p := by
  unfold Compiler.observe
  induction c.observers with
  | nil => exact .pure (f := fun _ => p) ()
  | cons ob obs ih => exact .bind (.single hok hfails) fun _ => ih

/-! ## Plugins -/

/-- A plugin that has been made works, and its tree is checked. -/
theorem judge_performs {p : PluginRef (StateM σ)} {name : String}
    {run : Template → Effect (StateM σ) Template} {t : Template} {s s' : σ}
    {result : Except String Template} (h : (run t).run.run s = (result, s')) :
    Performs c source o [.work p, .validate p] (.made t name run) s
      (((PluginRef.judge name result).mapError .plugin).map .tree) s' := by
  cases result with
  | error cause => exact .stop (.workFails h)
  | ok t' =>
      rw [PluginRef.judge]
      cases hv : t'.validate with
      | error breach => exact .cons (.work h) (.stop (.validateFails hv))
      | ok _ => exact .cons (.work h) (.cons (.validate hv) .nil)

theorem applyOnce_run {p : PluginRef (StateM σ)} {context : PluginContext} {t : Template}
    {s s' : σ} {name : String} {result : Except String Template}
    (h : (p.work context t).run s = ((name, result), s')) :
    (p.applyOnce context t).run.run s = (PluginRef.judge name result, s') := by
  rw [PluginRef.applyOnce, ExceptT.run_mk, run_bind_of_eq h]
  rfl

theorem applyOnce_carries (p : PluginRef (StateM σ)) (t : Template) :
    Carries c source o [.construct p, .work p, .validate p] (.tree t)
      ((p.applyOnce o.context t).adapt .plugin) .tree := by
  intro s r s' h
  cases p with
  | factory serial name build =>
      rcases hbuild : (build o.context).run s with ⟨plugin, s₁⟩
      rcases hwork : (plugin.visitor.traverse t).run.run s₁ with ⟨result, s₂⟩
      have hrun : ((PluginRef.factory serial name build).work o.context t).run s =
          ((plugin.name, result), s₂) := by
        rw [PluginRef.work, run_bind_of_eq hbuild, run_bind_of_eq hwork]
        rfl
      cases (run_adapt (applyOnce_run hrun) CompileError.plugin).symm.trans h
      exact .cons (.build hbuild) (judge_performs hwork)
  | transform type name =>
      rcases hconstruct : (type.construct o.context).run s with ⟨transform, s₁⟩
      rcases hwork : (transform t).run.run s₁ with ⟨result, s₂⟩
      have hrun : ((PluginRef.transform type name).work o.context t).run s =
          ((name, result), s₂) := by
        rw [PluginRef.work, run_bind_of_eq hconstruct, run_bind_of_eq hwork]
        rfl
      cases (run_adapt (applyOnce_run hrun) CompileError.plugin).symm.trans h
      exact .cons (.construct hconstruct) (judge_performs hwork)

theorem step_carries (t : Template) (p : SelectedPlugin (StateM σ)) :
    Carries c source o (c.round p.plugin) (.tree t) (c.step o.context t p) .tree := by
  rw [Compiler.round, List.append_assoc]
  refine .bind (observe_carries .before .beforeFails) fun _ => ?_
  refine .bind (applyOnce_carries p.plugin t) fun t' => ?_
  have hafter : Carries c source o (c.observers.map (.after p.plugin) ++ []) (.tree t')
      (c.observe (fun ob => ob.after p.plugin.name t') >>= fun _ => pure t') .tree :=
    .bind (observe_carries .after .afterFails) fun _ => .pure t'
  rwa [List.append_nil] at hafter

theorem steps_carry (ps : List (SelectedPlugin (StateM σ))) (t : Template) :
    Carries c source o (ps.flatMap fun p => c.round p.plugin) (.tree t)
      (ps.foldlM (c.step o.context) t) .tree := by
  induction ps generalizing t with
  | nil => exact .pure t
  | cons p ps ih => exact .bind (step_carries t p) ih

theorem stages_carry (stages : List Stage) (t : Template) :
    Carries c source o ((stages.flatMap o.plugins.get).flatMap fun p => c.round p.plugin) (.tree t)
      (stages.foldlM (c.runStage o) t) .tree := by
  induction stages generalizing t with
  | nil => exact .pure t
  | cons s stages ih =>
      rw [List.flatMap_cons, List.flatMap_append]
      exact .bind (steps_carry (o.plugins.get s) t) ih

/-! ## Whole compiles -/

theorem transformResolved_carries :
    Carries c source o (c.observers.map .start ++ ([.read] ++
      o.plugins.flatten.flatMap fun p => c.round p.plugin)) .begun
      (c.transformResolved source o) .tree := by
  refine .bind (observe_carries .start .startFails) fun _ => ?_
  exact .bind (.single .read .readFails) fun t => stages_carry Stage.all t

theorem compileResolved_carries :
    Carries c source o (c.schedule o) .begun (c.compileResolved source o) .done := by
  rw [Compiler.schedule, List.append_assoc (c.observers.map Event.start)]
  exact .bind transformResolved_carries fun t => .single .generate .generateFails

/-! ## The tree that is generated from -/

theorem Rewrites.append {context : PluginContext} {ps qs : List (PluginRef (StateM σ))}
    {t t' t'' : Template} :
    Rewrites context ps t t' → Rewrites context qs t' t'' → Rewrites context (ps ++ qs) t t''
  | .nil, hq => hq
  | .cons h hp, hq => .cons h (hp.append hq)

theorem steps_rewrite {ps : List (SelectedPlugin (StateM σ))} {t t' : Template} {s s' : σ}
    (h : (ps.foldlM (c.step o.context) t).run.run s = (.ok t', s')) :
    Rewrites o.context (ps.map (·.plugin)) t t' := by
  induction ps generalizing t s with
  | nil =>
      cases h
      exact .nil
  | cons p ps ih =>
      obtain ⟨t₁, s₁, hstep, hrest⟩ := run_bind_eq_ok h
      obtain ⟨_, s₂, -, hstep⟩ := run_bind_eq_ok hstep
      obtain ⟨t₂, s₃, happly, hstep⟩ := run_bind_eq_ok hstep
      obtain ⟨_, s₄, -, hpure⟩ := run_bind_eq_ok hstep
      cases hpure
      exact .cons (run_adapt_eq_ok happly) (ih hrest)

theorem stages_rewrite {stages : List Stage} {t t' : Template} {s s' : σ}
    (h : (stages.foldlM (c.runStage o) t).run.run s = (.ok t', s')) :
    Rewrites o.context ((stages.flatMap o.plugins.get).map (·.plugin)) t t' := by
  induction stages generalizing t s with
  | nil =>
      cases h
      exact .nil
  | cons stage stages ih =>
      obtain ⟨t₁, s₁, hstage, hrest⟩ := run_bind_eq_ok h
      rw [List.flatMap_cons, List.map_append]
      exact (steps_rewrite hstage).append (ih hrest)

/-- A program is generated from what the plugins made of the tree that was read. -/
theorem compileResolved_rewrites {program : CompiledTemplate} {s s' : σ}
    (h : (c.compileResolved source o).run.run s = (.ok program, s')) :
    ∃ t₀ t s₁ s₂ s₃, (c.read source o).run.run s₁ = (.ok t₀, s₂) ∧
      Rewrites o.context (o.plugins.flatten.map (·.plugin)) t₀ t ∧
      (c.generate t o).run.run s₃ = (.ok program, s') := by
  obtain ⟨t, s₃, htransform, hgenerate⟩ := run_bind_eq_ok h
  obtain ⟨_, s₁, -, htransform⟩ := run_bind_eq_ok htransform
  obtain ⟨t₀, s₂, hread, hstages⟩ := run_bind_eq_ok htransform
  exact ⟨t₀, t, s₁, s₂, s₃, run_adapt_eq_ok hread, stages_rewrite hstages,
    run_adapt_eq_ok hgenerate⟩

end

/-- A compile has a result if and only if all events of its schedule happen and none fails; it
has an error if and only if the events happen up to one that fails with it.  The schedule makes
every plugin once, and the result is generated from what the plugins, one after the other, made
of the tree that was read. -/
theorem Compiler.compileResolved_schedule {σ : Type} (c : Compiler (StateM σ)) (source : String)
    (o : ResolvedOptions (StateM σ)) (s s' : σ) :
    (c.schedule o).filterMap Event.constructed? = o.plugins.flatten.map (·.plugin) ∧
    (∀ program, (c.compileResolved source o).run.run s = (.ok program, s') ↔
      Performs c source o (c.schedule o) .begun s (.ok (.done program)) s') ∧
    (∀ x, (c.compileResolved source o).run.run s = (.error x, s') ↔
      ∃ before event after p t, c.schedule o = before ++ event :: after ∧
        Performs c source o before .begun s (.ok p) t ∧
        Happens c source o event p t (.error x) s') ∧
    ∀ program, (c.compileResolved source o).run.run s = (.ok program, s') →
      ∃ t₀ t s₁ s₂ s₃, (c.read source o).run.run s₁ = (.ok t₀, s₂) ∧
        Rewrites o.context (o.plugins.flatten.map (·.plugin)) t₀ t ∧
        (c.generate t o).run.run s₃ = (.ok program, s') := by
  rcases hrun : (c.compileResolved source o).run.run s with ⟨r, t⟩
  have hperforms := compileResolved_carries s r t hrun
  refine ⟨c.schedule_constructed o, fun program => ⟨fun h => ?_, fun h => ?_⟩,
    fun x => ⟨fun h => ?_, fun h => ?_⟩, fun program h => ?_⟩
  · cases h
    exact hperforms
  · obtain ⟨hr, rfl⟩ := hperforms.unique h
    cases r with
    | error x => exact nomatch hr
    | ok program' =>
        obtain rfl := Progress.done.inj (Except.ok.inj hr)
        rfl
  · cases h
    exact Performs.error_iff.mp hperforms
  · obtain ⟨hr, rfl⟩ := hperforms.unique (Performs.error_iff.mpr h)
    cases r with
    | error x' =>
        obtain rfl := Except.error.inj hr
        rfl
    | ok program => exact nomatch hr
  · exact compileResolved_rewrites (hrun.trans h)

end Bracework
