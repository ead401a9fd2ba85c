/-
Schedule — what happens in a compile, event by event.

A compile is a run of events.  `Compiler.schedule` lists them in the one order
there is: it depends on who looks on and which plugins take part, and on nothing
that happens in between.  `Happens` says what a single event does, with one rule
for every way in which it can go well and one for every way in which it can
fail; `Performs` runs events one after the other, up to the first that fails.

What hooks, plugins, readers and generators do is up to them.  They share a
state of any type, which stands for all that they write, count or remember, so
two runs that end in the same state for every such type have done the same
things in the same order.
-/
import Bracework.Compile.Compiler

namespace Bracework

/-! ## Events -/

/-- An event of a compile. -/
inductive Event (σ : Type) where
  | start (observer : Observer (StateM σ))
  | read
  | before (plugin : PluginRef (StateM σ)) (observer : Observer (StateM σ))
  | construct (plugin : PluginRef (StateM σ))
  | work (plugin : PluginRef (StateM σ))
  | validate (plugin : PluginRef (StateM σ))
  | after (plugin : PluginRef (StateM σ)) (observer : Observer (StateM σ))
  | generate

/-- What a compile has come to. -/
inductive Progress (σ : Type) where
  | begun
  | tree (t : Template)
  | made (t : Template) (name : String) (run : Template → Effect (StateM σ) Template)
  | returned (name : String) (t : Template)
  | done (program : CompiledTemplate)

namespace Compiler

variable {σ : Type}

/-- The events around and of one plugin. -/
def round (c : Compiler (StateM σ)) (p : PluginRef (StateM σ)) : List (Event σ) :=
  c.observers.map (.before p) ++ [.construct p, .work p, .validate p] ++
    c.observers.map (.after p)

/-- The events of a compile in which none fails. -/
def schedule (c : Compiler (StateM σ)) (o : ResolvedOptions (StateM σ)) : List (Event σ) :=
  c.observers.map .start ++ [.read] ++
    o.plugins.flatten.flatMap (fun p => c.round p.plugin) ++ [.generate]

end Compiler

/-- The plugin that an event makes anew. -/
def Event.constructed? {σ : Type} : Event σ → Option (PluginRef (StateM σ))
  | .construct p => some p
  | _ => none

theorem Compiler.round_constructed {σ : Type} (c : Compiler (StateM σ))
    (p : PluginRef (StateM σ)) : (c.round p).filterMap Event.constructed? = [p] := by
  have hhooks : c.observers.filterMap (fun _ => (none : Option (PluginRef (StateM σ)))) = [] :=
    List.filterMap_eq_nil_iff.mpr fun _ _ => rfl
  simp [round, Function.comp_def, Event.constructed?, List.filterMap_cons, hhooks]

/-- Every plugin that takes part is made once, in the order in which they run. -/
theorem Compiler.schedule_constructed {σ : Type} (c : Compiler (StateM σ))
    (o : ResolvedOptions (StateM σ)) :
    (c.schedule o).filterMap Event.constructed? = o.plugins.flatten.map (·.plugin) := by
  have hstart : (c.observers.map Event.start).filterMap Event.constructed? = [] := by
    simp [Function.comp_def, Event.constructed?]
  simp only [schedule, List.filterMap_append, hstart, List.filterMap_flatMap, round_constructed,
    ← List.map_eq_flatMap]
  exact List.append_nil _

/-! ## What an event does -/

section
variable {σ : Type} (c : Compiler (StateM σ)) (source : String) (o : ResolvedOptions (StateM σ))

/-- An event takes a compile from what it has come to, and the state, to an outcome and
a state. -/
inductive Happens :
    Event σ → Progress σ → σ → Except CompileError (Progress σ) → σ → Prop
  | start {ob : Observer (StateM σ)} {s s' : σ} :
      (ob.start o).run.run s = (.ok (), s') → Happens (.start ob) .begun s (.ok .begun) s'
  | startFails {ob : Observer (StateM σ)} {cause : String} {s s' : σ} :
      (ob.start o).run.run s = (.error cause, s') →
      Happens (.start ob) .begun s (.error (.observer ob.name cause)) s'
  | read {t : Template} {s s' : σ} :
      (c.read source o).run.run s = (.ok t, s') → Happens .read .begun s (.ok (.tree t)) s'
  | readFails {e : SourceError} {s s' : σ} :
      (c.read source o).run.run s = (.error e, s') →
      Happens .read .begun s (.error (.parse e)) s'
  | before {p : PluginRef (StateM σ)} {ob : Observer (StateM σ)} {t : Template} {s s' : σ} :
      (ob.before p.name t).run.run s = (.ok (), s') →
      Happens (.before p ob) (.tree t) s (.ok (.tree t)) s'
  | beforeFails {p : PluginRef (StateM σ)} {ob : Observer (StateM σ)} {t : Template}
      {cause : String} {s s' : σ} :
      (ob.before p.name t).run.run s = (.error cause, s') →
      Happens (.before p ob) (.tree t) s (.error (.observer ob.name cause)) s'
  | build {serial : Nat} {name : String} {build : PluginContext → StateM σ (AstPlugin (StateM σ))}
      {plugin : AstPlugin (StateM σ)} {t : Template} {s s' : σ} :
      (build o.context).run s = (plugin, s') →
      Happens (.construct (.factory serial name build)) (.tree t) s
        (.ok (.made t plugin.name plugin.visitor.traverse)) s'
  | construct {type : TransformType (StateM σ)} {name : String}
      {transform : Template → Effect (StateM σ) Template} {t : Template} {s s' : σ} :
      (type.construct o.context).run s = (transform, s') →
      Happens (.construct (.transform type name)) (.tree t) s (.ok (.made t name transform)) s'
  | work {p : PluginRef (StateM σ)} {name : String}
      {run : Template → Effect (StateM σ) Template} {t t' : Template} {s s' : σ} :
      (run t).run.run s = (.ok t', s') →
      Happens (.work p) (.made t name run) s (.ok (.returned name t')) s'
  | workFails {p : PluginRef (StateM σ)} {name : String}
      {run : Template → Effect (StateM σ) Template} {t : Template} {cause : String} {s s' : σ} :
      (run t).run.run s = (.error cause, s') →
      Happens (.work p) (.made t name run) s (.error (.plugin (.failed name cause))) s'
  | validate {p : PluginRef (StateM σ)} {name : String} {t : Template} {s : σ} :
      t.validate = .ok () → Happens (.validate p) (.returned name t) s (.ok (.tree t)) s
  | validateFails {p : PluginRef (StateM σ)} {name : String} {t : Template} {breach : Breach}
      {s : σ} :
      t.validate = .error breach →
      Happens (.validate p) (.returned name t) s (.error (.plugin (.invalid name breach))) s
  | after {p : PluginRef (StateM σ)} {ob : Observer (StateM σ)} {t : Template} {s s' : σ} :
      (ob.after p.name t).run.run s = (.ok (), s') →
      Happens (.after p ob) (.tree t) s (.ok (.tree t)) s'
  | afterFails {p : PluginRef (StateM σ)} {ob : Observer (StateM σ)} {t : Template}
      {cause : String} {s s' : σ} :
      (ob.after p.name t).run.run s = (.error cause, s') →
      Happens (.after p ob) (.tree t) s (.error (.observer ob.name cause)) s'
  | generate {t : Template} {program : CompiledTemplate} {s s' : σ} :
      (c.generate t o).run.run s = (.ok program, s') →
      Happens .generate (.tree t) s (.ok (.done program)) s'
  | generateFails {t : Template} {fault : GenerateFault} {s s' : σ} :
      (c.generate t o).run.run s = (.error fault, s') →
      Happens .generate (.tree t) s (.error (.generate fault)) s'

/-- Events happen one after the other, up to the first that fails. -/
inductive Performs :
    List (Event σ) → Progress σ → σ → Except CompileError (Progress σ) → σ → Prop
  | nil {p : Progress σ} {s : σ} : Performs [] p s (.ok p) s
  | cons {e : Event σ} {es : List (Event σ)} {p q : Progress σ} {s s' s'' : σ}
      {r : Except CompileError (Progress σ)} :
      Happens c source o e p s (.ok q) s' → Performs es q s' r s'' → Performs (e :: es) p s r s''
  | stop {e : Event σ} {es : List (Event σ)} {p : Progress σ} {s s' : σ} {x : CompileError} :
      Happens c source o e p s (.error x) s' → Performs (e :: es) p s (.error x) s'

end

/-- Plugins turn a tree into another, each what the one before it gave back. -/
inductive Rewrites {σ : Type} (context : PluginContext) :
    List (PluginRef (StateM σ)) → Template → Template → Prop
  | nil {t : Template} : Rewrites context [] t t
  | cons {p : PluginRef (StateM σ)} {ps : List (PluginRef (StateM σ))} {t t' t'' : Template}
      {s s' : σ} :
      (p.applyOnce context t).run.run s = (.ok t', s') → Rewrites context ps t' t'' →
      Rewrites context (p :: ps) t t''

/-! ## Runs of events -/

section
variable {σ : Type} {c : Compiler (StateM σ)} {source : String} {o : ResolvedOptions (StateM σ)}

/-- What an event does is told by what went before it. -/
theorem Happens.unique {e : Event σ} {p : Progress σ} {s s₁ s₂ : σ}
    {r₁ r₂ : Except CompileError (Progress σ)} (h₁ : Happens c source o e p s r₁ s₁)
    (h₂ : Happens c source o e p s r₂ s₂) : r₁ = r₂ ∧ s₁ = s₂ := by
  cases h₁ with
  | start h | startFails h | read h | readFails h | before h | beforeFails h | build h
  | construct h | work h | workFails h | validate h | validateFails h | after h | afterFails h
  | generate h | generateFails h =>
      cases h₂ <;> next h' =>
        cases h.symm.trans h' <;> exact ⟨rfl, rfl⟩

namespace Performs

theorem unique {es : List (Event σ)} {p : Progress σ} {s s₁ s₂ : σ}
    {r₁ r₂ : Except CompileError (Progress σ)} (h₁ : Performs c source o es p s r₁ s₁)
    (h₂ : Performs c source o es p s r₂ s₂) : r₁ = r₂ ∧ s₁ = s₂ := by
  induction h₁ with
  | nil =>
      cases h₂
      exact ⟨rfl, rfl⟩
  | cons h _ ih =>
      cases h₂ with
      | cons h' hs =>
          obtain ⟨hq, rfl⟩ := h.unique h'
          obtain rfl := Except.ok.inj hq
          exact ih hs
      | stop h' => exact nomatch (h.unique h').1
  | stop h =>
      cases h₂ with
      | cons h' _ => exact nomatch (h.unique h').1
      | stop h' => exact h.unique h'

theorem append {es fs : List (Event σ)} {p q : Progress σ} {s s' s'' : σ}
    {r : Except CompileError (Progress σ)} :
    Performs c source o es p s (.ok q) s' → Performs c source o fs q s' r s'' →
      Performs c source o (es ++ fs) p s r s''
  | .nil, hr => hr
  | .cons he h, hr => .cons he (h.append hr)

theorem append_stop {es : List (Event σ)} {p : Progress σ} {s s' : σ} {x : CompileError}
    (fs : List (Event σ)) :
    Performs c source o es p s (.error x) s' → Performs c source o (es ++ fs) p s (.error x) s'
  | .cons he h => .cons he (h.append_stop fs)
  | .stop he => .stop he

/-- A run that fails ends with the first event that does. -/
theorem error_iff {es : List (Event σ)} {p : Progress σ} {s s' : σ} {x : CompileError} :
    Performs c source o es p s (.error x) s' ↔
      ∃ before e after q t, es = before ++ e :: after ∧
        Performs c source o before p s (.ok q) t ∧ Happens c source o e q t (.error x) s' := by
  constructor
  · intro h
    generalize hx : (Except.error x : Except CompileError (Progress σ)) = result at h
    induction h with
    | nil => exact nomatch hx
    | cons he _ ih =>
        obtain ⟨before, e, after, q, t, rfl, hbefore, hfails⟩ := ih hx
        exact ⟨_ :: before, e, after, q, t, rfl, .cons he hbefore, hfails⟩
    | stop he => exact ⟨[], _, _, _, _, rfl, .nil, hx ▸ he⟩
  · rintro ⟨before, e, after, q, t, rfl, hbefore, hfails⟩
    exact hbefore.append (.stop hfails)

end Performs

end

end Bracework
