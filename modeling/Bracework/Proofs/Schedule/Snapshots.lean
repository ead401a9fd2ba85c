/-
Schedule — snapshots tell about the latest compile.

A plugin is completed when its tree has passed the rules.  `Completes` reads the
completed plugins of a compile off its events, with the trees, and knows nothing
of snapshots.  The observer that keeps snapshots comes first among the observers,
so no hook can fail between the event that completes a plugin and the one that
takes its snapshot: after every plugin, what is kept are the completed plugins,
numbered.

What hooks, plugins, readers and generators do is up to them, except that the
snapshots are out of their reach.
-/
import Bracework.Compile.Snapshot
import Bracework.Compile.Watcher
import Bracework.Proofs.Schedule.Driver

namespace Bracework

/-! ## Completed plugins -/

namespace Event

variable {σ : Type}

/-- What an event adds to the completed plugins: a tree that passes the rules completes the
plugin that gave it back. -/
def completes : Event σ → Except CompileError (Progress σ) → List (String × Template)
  | .validate p, .ok (.tree t) => [(p.name, t)]
  | _, _ => []

/-- The name of the plugin whose tree an event checks. -/
def checked? : Event σ → Option String
  | .validate p => some p.name
  | _ => none

end Event

section
variable {σ : Type} (c : Compiler (StateM σ)) (source : String) (o : ResolvedOptions (StateM σ))

/-- Events happen up to the first that fails, and complete some plugins. -/
inductive Completes : List (Event σ) → Progress σ → σ → List (String × Template) →
    Except CompileError (Progress σ) → σ → Prop
  | nil {p : Progress σ} {s : σ} : Completes [] p s [] (.ok p) s
  | cons {e : Event σ} {es : List (Event σ)} {p q : Progress σ} {s s' s'' : σ}
      {done : List (String × Template)} {r : Except CompileError (Progress σ)} :
      Happens c source o e p s (.ok q) s' → Completes es q s' done r s'' →
      Completes (e :: es) p s (e.completes (.ok q) ++ done) r s''
  | stop {e : Event σ} {es : List (Event σ)} {p : Progress σ} {s s' : σ} {x : CompileError} :
      Happens c source o e p s (.error x) s' → Completes (e :: es) p s [] (.error x) s'

variable {c source o}

theorem Performs.completes {es : List (Event σ)} {p : Progress σ} {s s' : σ}
    {r : Except CompileError (Progress σ)} (h : Performs c source o es p s r s') :
    ∃ done, Completes c source o es p s done r s' := by
  induction h with
  | nil => exact ⟨[], .nil⟩
  | cons he _ ih =>
      obtain ⟨done, h⟩ := ih
      exact ⟨_, .cons he h⟩
  | stop he => exact ⟨[], .stop he⟩

namespace Completes

/-- Events in two parts stop in the first, or complete what the two parts do. -/
theorem of_append {es fs : List (Event σ)} {p : Progress σ} {s s' : σ}
    {done : List (String × Template)} {r : Except CompileError (Progress σ)}
    (h : Completes c source o (es ++ fs) p s done r s') :
    (Completes c source o es p s done r s' ∧ ∀ q, r ≠ .ok q) ∨
      ∃ q t first second, Completes c source o es p s first (.ok q) t ∧
        Completes c source o fs q t second r s' ∧ done = first ++ second := by
  induction es generalizing p s done with
  | nil => exact .inr ⟨p, s, [], done, .nil, h, rfl⟩
  | cons e es ih =>
      cases h with
      | stop he => exact .inl ⟨.stop he, fun q hq => nomatch hq⟩
      | cons he h =>
          rcases ih h with ⟨h, hr⟩ | ⟨q, t, first, second, hfirst, hsecond, rfl⟩
          · exact .inl ⟨.cons he h, hr⟩
          · exact .inr ⟨q, t, _, second, .cons he hfirst, hsecond, (List.append_assoc ..).symm⟩

/-- If no event fails, the plugins are completed whose trees are checked. -/
theorem names_eq {es : List (Event σ)} {p q : Progress σ} {s s' : σ}
    {done : List (String × Template)} (h : Completes c source o es p s done (.ok q) s') :
    done.map Prod.fst = es.filterMap Event.checked? := by
  induction es generalizing p s done with
  | nil =>
      cases h
      rfl
  | cons e es ih =>
      cases h with
      | cons he h =>
          rw [List.map_append, ih h, List.filterMap_cons]
          cases he <;> rfl

/-- If an event fails, what is completed was completed by the events before it. -/
theorem exists_failed {es : List (Event σ)} {p : Progress σ} {s s' : σ}
    {done : List (String × Template)} {x : CompileError}
    (h : Completes c source o es p s done (.error x) s') :
    ∃ before e after q t, es = before ++ e :: after ∧
      Completes c source o before p s done (.ok q) t ∧ Happens c source o e q t (.error x) s' := by
  induction es generalizing p s done with
  | nil => cases h
  | cons e es ih =>
      cases h with
      | stop he => exact ⟨[], e, es, p, s, rfl, .nil, he⟩
      | cons he h =>
          obtain ⟨before, e', after, q, t, rfl, hbefore, hfails⟩ := ih h
          exact ⟨e :: before, e', after, q, t, rfl, .cons he hbefore, hfails⟩

end Completes

end

/-! ## Programs that leave the snapshots alone -/

section
variable {τ : Type}

/-- A program leaves the snapshots as they are. -/
def Spares {α : Type} (x : StateM (List Snapshot × τ) α) : Prop := ∀ s, (x.run s).2.1 = s.1

theorem Spares.run {α : Type} {x : StateM (List Snapshot × τ) α} (h : Spares x) {a : α}
    {s s' : List Snapshot × τ} (hx : x.run s = (a, s')) : s'.1 = s.1 := by
  have := h s
  rwa [hx] at this

/-- The hooks of an observer leave the snapshots as they are. -/
structure Observer.Spares (ob : Observer (StateM (List Snapshot × τ))) : Prop where
  start : ∀ o, Bracework.Spares (ob.start o).run
  before : ∀ plugin t, Bracework.Spares (ob.before plugin t).run
  after : ∀ plugin t, Bracework.Spares (ob.after plugin t).run

/-- To make a plugin and to let it work leaves the snapshots as they are. -/
def PluginRef.Spares : PluginRef (StateM (List Snapshot × τ)) → Prop
  | .factory _ _ build => ∀ context, Bracework.Spares (build context) ∧
      ∀ s t, Bracework.Spares (((build context).run s).1.visitor.traverse t).run
  | .transform type _ => ∀ context, Bracework.Spares (type.construct context) ∧
      ∀ s t, Bracework.Spares (((type.construct context).run s).1 t).run

/-- The observer that keeps snapshots and writes none of them to a file. -/
def Observer.keeper : Observer (StateM (List Snapshot × τ)) :=
  .snapshots (return (← get).1) (fun taken => modify fun s => (taken, s.2)) fun _ => pure ()

/-- A compiler that keeps snapshots, with watchers and other parts that do not touch them. -/
structure Compiler.Traces (c : Compiler (StateM (List Snapshot × τ)))
    (watchers : List (Observer (StateM (List Snapshot × τ)))) : Prop where
  observers : c.observers = .keeper :: watchers
  watchers : ∀ ob ∈ watchers, ob.Spares
  read : ∀ source o, Spares (c.read source o).run
  generate : ∀ t o, Spares (c.generate t o).run

theorem Watcher.spares_check (w : Watcher) (hook : Hook) (plugin : String) :
    Spares (τ := τ) (w.check hook plugin).run := by
  intro s
  rw [check]
  split <;> rfl

theorem Watcher.spares_noted {note : String → StateM (List Snapshot × τ) Unit}
    (h : ∀ text, Spares (note text)) (w : Watcher) (text : String) (hook : Hook)
    (plugin : String) :
    Spares (do note text; w.check hook plugin : Effect (StateM (List Snapshot × τ)) Unit).run := by
  intro s
  exact (spares_check w hook plugin _).trans (h text s)

/-- A watcher leaves the snapshots alone if its notes do. -/
theorem Watcher.spares_observer {note : String → StateM (List Snapshot × τ) Unit}
    (h : ∀ text, Spares (note text)) (w : Watcher) : (w.observer note).Spares :=
  ⟨fun _ => spares_noted h w _ _ _, fun _ _ => spares_noted h w _ _ _,
    fun _ _ => spares_noted h w _ _ _⟩

/-! ## Numbered snapshots -/

/-- The snapshots of completed plugins. -/
def numbered (done : List (String × Template)) : List Snapshot :=
  done.mapIdx fun i entry => ⟨i + 1, entry.1, entry.2.print⟩

theorem numbered_snoc (done : List (String × Template)) (plugin : String) (t : Template) :
    numbered (done ++ [(plugin, t)]) =
      numbered done ++ [Snapshot.next (numbered done) plugin t] := by
  rw [numbered, List.mapIdx_concat, Snapshot.next, numbered, List.length_mapIdx]

/-! ## What events do to the snapshots -/

/-- What an event calls leaves the snapshots as they are. -/
def Event.Spares : Event (List Snapshot × τ) → Prop
  | .start ob => ∀ o, Bracework.Spares (ob.start o).run
  | .before p ob => ∀ t, Bracework.Spares (ob.before p.name t).run
  | .after p ob => ∀ t, Bracework.Spares (ob.after p.name t).run
  | .construct p | .work p | .validate p => p.Spares
  | .read | .generate => True

/-- What a compile has come to may go on to run a plugin, which leaves the snapshots as they
are. -/
def Progress.Spares : Except CompileError (Progress (List Snapshot × τ)) → Prop
  | .ok (.made _ _ run) => ∀ t, Bracework.Spares (run t).run
  | _ => True

variable {c : Compiler (StateM (List Snapshot × τ))} {source : String}
  {o : ResolvedOptions (StateM (List Snapshot × τ))}
  {watchers : List (Observer (StateM (List Snapshot × τ)))}

theorem Happens.spares {e : Event (List Snapshot × τ)} {p : Progress (List Snapshot × τ)}
    {s s' : List Snapshot × τ} {r : Except CompileError (Progress (List Snapshot × τ))}
    (h : Happens c source o e p s r s') (hc : c.Traces watchers) (he : e.Spares)
    (hp : Progress.Spares (.ok p)) : s'.1 = s.1 ∧ Progress.Spares r := by
  cases h with
  | start h | startFails h | before h | beforeFails h | after h | afterFails h =>
      exact ⟨(he _).run h, trivial⟩
  | read h | readFails h => exact ⟨(hc.read _ _).run h, trivial⟩
  | @build serial name build plugin t s s' h =>
      refine ⟨(he _).1.run h, fun t => ?_⟩
      have hwork := (he o.context).2 s t
      rwa [h] at hwork
  | @construct type name transform t s s' h =>
      refine ⟨(he _).1.run h, fun t => ?_⟩
      have hwork := (he o.context).2 s t
      rwa [h] at hwork
  | work h | workFails h => exact ⟨(hp _).run h, trivial⟩
  | validate _ | validateFails _ => exact ⟨rfl, trivial⟩
  | generate h | generateFails h => exact ⟨(hc.generate _ _).run h, trivial⟩

/-! ## Compiles -/

variable (c source o) in
/-- However far they get, events make the snapshots tell of the plugins that they complete. -/
def Tells (es : List (Event (List Snapshot × τ))) : Prop :=
  ∀ ⦃p s done r s' base⦄, Completes c source o es p s done r s' → Progress.Spares (.ok p) →
    s.1 = numbered base → s'.1 = numbered (base ++ done) ∧ Progress.Spares r

namespace Tells

theorem nil : Tells c source o [] := by
  intro p s done r s' base h hp hs
  cases h
  rw [List.append_nil]
  exact ⟨hs, hp⟩

theorem append {es fs : List (Event (List Snapshot × τ))} (he : Tells c source o es)
    (hf : Tells c source o fs) : Tells c source o (es ++ fs) := by
  intro p s done r s' base h hp hs
  rcases h.of_append with ⟨h, -⟩ | ⟨q, t, first, second, hfirst, hsecond, rfl⟩
  · exact he h hp hs
  · obtain ⟨ht, hq⟩ := he hfirst hp hs
    rw [← List.append_assoc]
    exact hf hsecond hq ht

theorem flatMap {α : Type} {f : α → List (Event (List Snapshot × τ))} {xs : List α}
    (h : ∀ x ∈ xs, Tells c source o (f x)) : Tells c source o (xs.flatMap f) := by
  induction xs with
  | nil => exact nil
  | cons x xs ih =>
      rw [List.flatMap_cons]
      exact (h x List.mem_cons_self).append (ih fun y hy => h y (List.mem_cons_of_mem x hy))

/-- An event that does not touch the snapshots, and checks no plugin. -/
theorem spared {e : Event (List Snapshot × τ)} (hc : c.Traces watchers) (he : e.Spares)
    (hno : e.checked? = none) : Tells c source o [e] := by
  intro p s done r s' base h hp hs
  cases h with
  | stop h =>
      rw [List.append_nil]
      obtain ⟨hs', hr⟩ := h.spares hc he hp
      exact ⟨hs'.trans hs, hr⟩
  | @cons _ _ _ q _ _ _ _ _ h hrest =>
      obtain ⟨hs', hr⟩ := h.spares hc he hp
      have hnone : e.completes (.ok q) = [] := by
        cases e <;> first | rfl | exact nomatch hno
      rw [hnone]
      exact nil hrest hr (hs'.trans hs)

theorem map {ob : List (Observer (StateM (List Snapshot × τ)))}
    {event : Observer (StateM (List Snapshot × τ)) → Event (List Snapshot × τ)}
    (hc : c.Traces watchers) (he : ∀ x ∈ ob, (event x).Spares)
    (hno : ∀ x, (event x).checked? = none) : Tells c source o (ob.map event) := by
  rw [List.map_eq_flatMap]
  exact flatMap fun x hx => spared hc (he x hx) (hno x)

/-- A plugin is checked, and then the keeper looks at its tree before anyone else does. -/
theorem validate_keeper (hc : c.Traces watchers)
    {p : PluginRef (StateM (List Snapshot × τ))} (hp : p.Spares) :
    Tells c source o [.validate p, .after p .keeper] := by
  intro progress s done r s' base h hprogress hs
  cases h with
  | stop h =>
      rw [List.append_nil]
      obtain ⟨hs', hr⟩ := h.spares hc hp hprogress
      exact ⟨hs'.trans hs, hr⟩
  | cons h hrest =>
      cases h
      cases hrest with
      | stop h =>
          cases h with
          | afterFails h => exact nomatch h
      | cons h hrest =>
          cases hrest
          cases h with
          | after h =>
              cases h
              refine ⟨?_, trivial⟩
              show s.1 ++ [Snapshot.next s.1 p.name _] = numbered (base ++ [(p.name, _)])
              rw [numbered_snoc, hs]

theorem round (hc : c.Traces watchers) {p : PluginRef (StateM (List Snapshot × τ))}
    (hp : p.Spares) : Tells c source o (c.round p) := by
  have hbefore : Tells c source o (c.observers.map (.before p)) := by
    refine map hc (fun ob hob => ?_) fun _ => rfl
    rw [hc.observers] at hob
    rcases List.mem_cons.mp hob with rfl | hob
    · exact fun t s => rfl
    · exact (hc.watchers ob hob).before p.name
  have hconstruct : Tells c source o [.construct p] := spared (e := .construct p) hc hp rfl
  have hwork : Tells c source o [.work p] := spared (e := .work p) hc hp rfl
  have hafter : Tells c source o (watchers.map (.after p)) :=
    map hc (fun ob hob => (hc.watchers ob hob).after p.name) fun _ => rfl
  have hround : c.round p = c.observers.map (.before p) ++ ([.construct p] ++ ([.work p] ++
      ([.validate p, .after p .keeper] ++ watchers.map (.after p)))) := by
    rw [Compiler.round, hc.observers, List.append_assoc]
    rfl
  rw [hround]
  exact hbefore.append (hconstruct.append (hwork.append ((validate_keeper hc hp).append hafter)))

end Tells

/-- From the start hook of the keeper on, nothing of what was kept before is left. -/
theorem Completes.fresh {es : List (Event (List Snapshot × τ))} {s s' : List Snapshot × τ}
    {done : List (String × Template)} {r : Except CompileError (Progress (List Snapshot × τ))}
    (hes : Tells c source o es) (h : Completes c source o (.start .keeper :: es) .begun s done r s') :
    s'.1 = numbered done := by
  cases h with
  | stop h =>
      cases h with
      | startFails h => exact nomatch h
  | cons h hrest =>
      cases h with
      | start h =>
          cases h
          exact (hes hrest trivial rfl).1

end

/-! ## Calls -/

/-- A call on a compiler; what is registered may differ from one to the next. -/
inductive CompilerCall (m : Type → Type) where
  | transform (registry : Registry m) (source : String) (options : CompileOptions m)
  | compile (registry : Registry m) (source : String) (options : CompileOptions m)
  | transformResolved (source : String) (options : ResolvedOptions m)
  | compileResolved (source : String) (options : ResolvedOptions m)

namespace CompilerCall

variable {m : Type → Type} {σ : Type}

def source : CompilerCall m → String
  | .transform _ source _ | .compile _ source _ => source
  | .transformResolved source _ | .compileResolved source _ => source

/-- The options of a call, with the plugins that take part in it. -/
def options (c : Compiler m) : CompilerCall m → ResolvedOptions m
  | .transform registry _ o | .compile registry _ o => o.resolve c.defaults registry
  | .transformResolved _ o | .compileResolved _ o => o

/-- The plugins that take part in a call. -/
def plugins (c : Compiler m) (call : CompilerCall m) : List (PluginRef m) :=
  (call.options c).plugins.flatten.map (·.plugin)

/-- What a call does, and what it comes to. -/
def perform (c : Compiler (StateM σ)) :
    CompilerCall (StateM σ) → ExceptT CompileError (StateM σ) (Progress σ)
  | .transform registry source o => return .tree (← c.transform registry source o)
  | .compile registry source o => return .done (← c.compile registry source o)
  | .transformResolved source o => return .tree (← c.transformResolved source o)
  | .compileResolved source o => return .done (← c.compileResolved source o)

/-- The events of a call after the last plugin. -/
def ending : CompilerCall (StateM σ) → List (Event σ)
  | .transform .. | .transformResolved .. => []
  | .compile .. | .compileResolved .. => [.generate]

/-- The events of a call in which none fails. -/
def events (c : Compiler (StateM σ)) (call : CompilerCall (StateM σ)) : List (Event σ) :=
  c.observers.map .start ++ [.read] ++
    (call.options c).plugins.flatten.flatMap (fun p => c.round p.plugin) ++ call.ending

/-- The state that calls in a row leave behind. -/
def stateAfter (c : Compiler (StateM σ)) (calls : List (CompilerCall (StateM σ))) (s : σ) : σ :=
  calls.foldl (fun s call => ((call.perform c).run.run s).2) s

theorem stateAfter_snoc (c : Compiler (StateM σ)) (calls : List (CompilerCall (StateM σ)))
    (call : CompilerCall (StateM σ)) (s : σ) :
    stateAfter c (calls ++ [call]) s = ((call.perform c).run.run (stateAfter c calls s)).2 := by
  rw [stateAfter, List.foldl_append]
  rfl

/-- A call is a run of its events. -/
theorem perform_carries (c : Compiler (StateM σ)) (call : CompilerCall (StateM σ)) :
    Carries c call.source (call.options c) (call.events c) .begun (call.perform c) id := by
  cases call with
  | transform | transformResolved =>
      rw [events, ending, List.append_nil, List.append_assoc (c.observers.map Event.start)]
      exact transformResolved_carries.returned
  | compile | compileResolved => exact compileResolved_carries.returned

end CompilerCall

/-! ## Where a call stopped -/

/-- The plugins that are completed before an event: a plugin is from its first after hook on. -/
inductive CompletedBefore {σ : Type} (ps : List (PluginRef (StateM σ))) :
    Event σ → List (PluginRef (StateM σ)) → Prop
  | start {ob : Observer (StateM σ)} : CompletedBefore ps (.start ob) []
  | read : CompletedBefore ps .read []
  | before {first rest : List (PluginRef (StateM σ))} {p : PluginRef (StateM σ)}
      {ob : Observer (StateM σ)} :
      ps = first ++ p :: rest → CompletedBefore ps (.before p ob) first
  | construct {first rest : List (PluginRef (StateM σ))} {p : PluginRef (StateM σ)} :
      ps = first ++ p :: rest → CompletedBefore ps (.construct p) first
  | work {first rest : List (PluginRef (StateM σ))} {p : PluginRef (StateM σ)} :
      ps = first ++ p :: rest → CompletedBefore ps (.work p) first
  | validate {first rest : List (PluginRef (StateM σ))} {p : PluginRef (StateM σ)} :
      ps = first ++ p :: rest → CompletedBefore ps (.validate p) first
  | after {first rest : List (PluginRef (StateM σ))} {p : PluginRef (StateM σ)}
      {ob : Observer (StateM σ)} :
      ps = first ++ p :: rest → CompletedBefore ps (.after p ob) (first ++ [p])
  | generate : CompletedBefore ps .generate ps

section
variable {α β σ : Type}

/-- An element of two lists in a row is in the first or in the second. -/
theorem append_eq_around {xs ys before after : List α} {x : α}
    (h : xs ++ ys = before ++ x :: after) :
    (∃ rest, xs = before ++ x :: rest) ∨ ∃ mid, before = xs ++ mid ∧ ys = mid ++ x :: after := by
  rcases List.append_eq_append_iff.mp h with ⟨mid, hbefore, hys⟩ | ⟨mid, hxs, hmid⟩
  · exact .inr ⟨mid, hbefore, hys⟩
  · cases mid with
    | nil => exact .inr ⟨[], by rw [hxs, List.append_nil, List.append_nil], hmid.symm⟩
    | cons y mid =>
        obtain ⟨rfl, -⟩ := List.cons.inj hmid
        exact .inl ⟨mid, hxs⟩

theorem flatMap_eq_around {f : α → List β} {xs : List α} {before after : List β} {y : β}
    (h : xs.flatMap f = before ++ y :: after) :
    ∃ first x rest mid after', xs = first ++ x :: rest ∧ before = first.flatMap f ++ mid ∧
      f x = mid ++ y :: after' := by
  induction xs generalizing before with
  | nil => exact nomatch (List.nil_eq_append_iff.mp h).2
  | cons x xs ih =>
      rw [List.flatMap_cons] at h
      rcases append_eq_around h with ⟨after', hx⟩ | ⟨mid, rfl, hxs⟩
      · exact ⟨[], x, xs, before, after', rfl, rfl, hx⟩
      · obtain ⟨first, x', rest, mid', after', rfl, rfl, hx'⟩ := ih hxs
        refine ⟨x :: first, x', rest, mid', after', rfl, ?_, hx'⟩
        rw [List.flatMap_cons, List.append_assoc]

/-- Hooks check no plugin. -/
theorem hooks_checked {event : Observer (StateM σ) → Event σ}
    (hno : ∀ ob, (event ob).checked? = none) (obs : List (Observer (StateM σ))) :
    (obs.map event).filterMap Event.checked? = [] := by
  rw [List.filterMap_map]
  exact List.filterMap_eq_nil_iff.mpr fun ob _ => hno ob

theorem hooks_eq_around {event : Observer (StateM σ) → Event σ}
    (hno : ∀ ob, (event ob).checked? = none) {obs : List (Observer (StateM σ))}
    {before after : List (Event σ)} {e : Event σ} (h : obs.map event = before ++ e :: after) :
    (∃ ob, e = event ob) ∧ before.filterMap Event.checked? = [] := by
  obtain ⟨first, rest, rfl, rfl, hrest⟩ := List.map_eq_append_iff.mp h
  obtain ⟨ob, -, -, rfl, -⟩ := List.map_eq_cons_iff.mp hrest
  exact ⟨⟨ob, rfl⟩, hooks_checked hno first⟩

namespace Compiler

theorem round_checked (c : Compiler (StateM σ)) (p : PluginRef (StateM σ)) :
    (c.round p).filterMap Event.checked? = [p.name] := by
  rw [round, List.filterMap_append, List.filterMap_append, hooks_checked fun _ => rfl,
    hooks_checked fun _ => rfl]
  rfl

/-- Every plugin is checked once, in the order in which they run. -/
theorem rounds_checked (c : Compiler (StateM σ)) (ps : List (PluginRef (StateM σ))) :
    (ps.flatMap c.round).filterMap Event.checked? = ps.map (·.name) := by
  simp only [List.filterMap_flatMap, round_checked, ← List.map_eq_flatMap]

/-- Of the events around and of a plugin, those after the check are the after hooks. -/
theorem round_eq_around {c : Compiler (StateM σ)} {ps first rest : List (PluginRef (StateM σ))}
    {p : PluginRef (StateM σ)} (hps : ps = first ++ p :: rest) {before after : List (Event σ)}
    {e : Event σ} (h : c.round p = before ++ e :: after) :
    ∃ completed, CompletedBefore ps e (first ++ completed) ∧
      before.filterMap Event.checked? = completed.map (·.name) := by
  rw [round, List.append_assoc] at h
  rcases append_eq_around h with ⟨_, hbefore⟩ | ⟨mid, rfl, hrest⟩
  · obtain ⟨⟨ob, rfl⟩, hnone⟩ := hooks_eq_around (fun _ => rfl) hbefore
    exact ⟨[], by rw [List.append_nil]; exact .before hps, hnone⟩
  rw [List.filterMap_append, hooks_checked fun _ => rfl]
  rcases append_eq_around hrest with ⟨_, hmade⟩ | ⟨mid, rfl, hafter⟩
  · refine ⟨[], ?_⟩
    rw [List.append_nil]
    rcases mid with _ | ⟨_, _ | ⟨_, _ | ⟨_, mid⟩⟩⟩
    · cases hmade
      exact ⟨.construct hps, rfl⟩
    · cases hmade
      exact ⟨.work hps, rfl⟩
    · cases hmade
      exact ⟨.validate hps, rfl⟩
    · cases mid <;> cases hmade
  · obtain ⟨⟨ob, rfl⟩, hnone⟩ := hooks_eq_around (fun _ => rfl) hafter
    refine ⟨[p], .after hps, ?_⟩
    rw [List.filterMap_append, hnone]
    rfl

end Compiler

namespace CompilerCall

variable {c : Compiler (StateM σ)} {call : CompilerCall (StateM σ)}

theorem events_eq : call.events c =
    c.observers.map .start ++ ([.read] ++ ((call.plugins c).flatMap c.round ++ call.ending)) := by
  rw [events, plugins, List.flatMap_map]
  simp only [List.append_assoc]

theorem ending_checked : call.ending.filterMap Event.checked? = [] := by
  cases call <;> rfl

theorem ending_eq_around {before after : List (Event σ)} {e : Event σ}
    (h : call.ending = before ++ e :: after) : before = [] ∧ e = .generate := by
  rcases before with _ | ⟨_, _ | _⟩
  all_goals cases call <;> cases h
  all_goals exact ⟨rfl, rfl⟩

theorem events_checked :
    (call.events c).filterMap Event.checked? = (call.plugins c).map (·.name) := by
  rw [events_eq, List.filterMap_append, hooks_checked fun _ => rfl, List.filterMap_append,
    List.filterMap_append, Compiler.rounds_checked, ending_checked, List.append_nil]
  rfl

/-- The plugins that are checked before an event are those that are completed then. -/
theorem events_eq_around {before after : List (Event σ)} {e : Event σ}
    (h : call.events c = before ++ e :: after) :
    ∃ completed, CompletedBefore (call.plugins c) e completed ∧
      before.filterMap Event.checked? = completed.map (·.name) := by
  rw [events_eq] at h
  rcases append_eq_around h with ⟨_, hstart⟩ | ⟨mid, rfl, hbehind⟩
  · obtain ⟨⟨ob, rfl⟩, hnone⟩ := hooks_eq_around (fun _ => rfl) hstart
    exact ⟨[], .start, hnone⟩
  rw [List.filterMap_append, hooks_checked fun _ => rfl]
  rcases append_eq_around hbehind with ⟨_, hread⟩ | ⟨mid, rfl, hrest⟩
  · rcases mid with _ | ⟨_, _ | _⟩
    all_goals cases hread
    exact ⟨[], .read, rfl⟩
  rcases append_eq_around hrest with ⟨_, hround⟩ | ⟨mid, rfl, hending⟩
  · obtain ⟨first, p, rest, mid, _, hps, rfl, hp⟩ := flatMap_eq_around hround
    obtain ⟨completed, hcompleted, hnames⟩ := Compiler.round_eq_around hps hp
    refine ⟨_, hcompleted, ?_⟩
    rw [List.filterMap_append, List.filterMap_append, Compiler.rounds_checked, hnames,
      List.map_append]
    rfl
  · obtain ⟨rfl, rfl⟩ := ending_eq_around hending
    refine ⟨_, .generate, ?_⟩
    rw [List.append_nil, List.filterMap_append, Compiler.rounds_checked]
    rfl

end CompilerCall

end

/-! ## After every call -/

namespace CompilerCall

section
variable {τ : Type} {c : Compiler (StateM (List Snapshot × τ))}
  {watchers : List (Observer (StateM (List Snapshot × τ)))}

theorem events_tell (hc : c.Traces watchers) {call : CompilerCall (StateM (List Snapshot × τ))}
    (hcall : ∀ p ∈ call.plugins c, p.Spares) :
    ∃ es, call.events c = .start .keeper :: es ∧ Tells c call.source (call.options c) es := by
  have hstarts : Tells c call.source (call.options c) (watchers.map .start) :=
    .map hc (fun ob hob => (hc.watchers ob hob).start) fun _ => rfl
  have hrounds : Tells c call.source (call.options c) ((call.plugins c).flatMap c.round) :=
    .flatMap fun p hp => .round hc (hcall p hp)
  have hending : Tells c call.source (call.options c) call.ending := by
    cases call with
    | transform | transformResolved => exact .nil
    | compile | compileResolved => exact .spared (e := .generate) hc trivial rfl
  refine ⟨_, ?_, hstarts.append ((Tells.spared (e := .read) hc trivial rfl).append
    (hrounds.append hending))⟩
  rw [events_eq, hc.observers]
  rfl

/-- Whatever calls came before, and however far the last one got, the snapshots are those of
the plugins that it completed: of all that take part in it if it has a result, and else of
those before the event that failed. -/
theorem snapshots_stateAfter (hc : c.Traces watchers)
    (earlier : List (CompilerCall (StateM (List Snapshot × τ))))
    (call : CompilerCall (StateM (List Snapshot × τ))) (hcall : ∀ p ∈ call.plugins c, p.Spares)
    (s : List Snapshot × τ) :
    ∃ done outcome,
      (call.perform c).run.run (stateAfter c earlier s) =
        (outcome, stateAfter c (earlier ++ [call]) s) ∧
      Completes c call.source (call.options c) (call.events c) .begun (stateAfter c earlier s)
        done outcome (stateAfter c (earlier ++ [call]) s) ∧
      (stateAfter c (earlier ++ [call]) s).1 = numbered done ∧
      (∀ progress, outcome = .ok progress →
        done.map Prod.fst = (call.plugins c).map (·.name)) ∧
      ∀ x, outcome = .error x → ∃ event ∈ call.events c, ∃ progress s' completed,
        Happens c call.source (call.options c) event progress s' (.error x)
          (stateAfter c (earlier ++ [call]) s) ∧
        CompletedBefore (call.plugins c) event completed ∧
        done.map Prod.fst = completed.map (·.name) := by
  rcases hrun : (call.perform c).run.run (stateAfter c earlier s) with ⟨outcome, s'⟩
  have hafter : stateAfter c (earlier ++ [call]) s = s' := by
    rw [stateAfter_snoc, hrun]
  have hperforms := perform_carries c call _ _ _ hrun
  rw [show outcome.map id = outcome by cases outcome <;> rfl] at hperforms
  obtain ⟨done, hdone⟩ := hperforms.completes
  obtain ⟨es, hevents, htell⟩ := events_tell hc hcall
  rw [hafter]
  refine ⟨done, outcome, rfl, hdone, Completes.fresh htell (hevents ▸ hdone), ?_, ?_⟩
  · rintro progress rfl
    rw [hdone.names_eq, events_checked]
  · rintro x rfl
    obtain ⟨before, event, after, progress, t, hsplit, hbefore, hfails⟩ := hdone.exists_failed
    obtain ⟨completed, hcompleted, hnames⟩ := events_eq_around hsplit
    refine ⟨event, ?_, progress, t, completed, hfails, hcompleted, ?_⟩
    · rw [hsplit]
      exact List.mem_append_right before List.mem_cons_self
    · rw [hbefore.names_eq, hnames]

end

/-- A plugin that changes nothing. -/
def idle (name : String) : PluginRef (StateM (List Snapshot × List String)) :=
  .transform ⟨"Idle", "idle", fun _ => return fun t => return t⟩ name

/-- A compiler with two observers: the second stops a compile after the plugin `second`. -/
def stopping : Compiler (StateM (List Snapshot × List String)) where
  defaults := {}
  read := readTemplate
  generate := generateProgram
  observers := [.keeper, Watcher.observer (fun text => modify fun s => (s.1, s.2 ++ [text]))
    ⟨some .after, some "second", "enough"⟩]

/-- A call in which some plugins take part that change nothing. -/
def ofNames (source : String) (names : List String) :
    CompilerCall (StateM (List Snapshot × List String)) :=
  .compileResolved source { plugins := ⟨names.map fun name => ⟨idle name, .adHoc⟩⟩ }

theorem snapshots_stateAfter_stopped :
    ∃ done, numbered done = [⟨1, "first", "b"⟩, ⟨2, "second", "b"⟩] ∧
      (stateAfter stopping [ofNames "a" ["only"], ofNames "b" ["first", "second", "third"]]
        ([], [])).1 = numbered done := by
  have htraces : stopping.Traces [_] :=
    ⟨rfl, List.forall_mem_singleton.mpr (Watcher.spares_observer (fun _ _ => rfl) _),
      fun _ _ _ => rfl, fun _ _ _ => rfl⟩
  have hidle : ∀ p ∈ ["first", "second", "third"].map idle, p.Spares :=
    List.forall_mem_map.mpr fun name _ _ => ⟨fun _ => rfl, fun _ _ _ => rfl⟩
  obtain ⟨done, -, -, -, hkept, -⟩ := snapshots_stateAfter htraces [ofNames "a" ["only"]]
    (ofNames "b" ["first", "second", "third"]) hidle ([], [])
  refine ⟨done, hkept.symm.trans ?_, hkept⟩
  decide +kernel

end CompilerCall

end Bracework
