/-
The command line — compiles that are traced.

A compile that is traced runs the plugins, each followed by the snapshot of what it
left, and generates the program.  It comes to what it comes to without a trace, and
besides nothing is written except the snapshots.  `ResolvedOptions.completed` says
without a monad which plugins complete, and so which snapshots there are, wherever
the compile stops.
-/
import Bracework.Proofs.CommandLine.Loading
import Bracework.Proofs.CommandLine.Tracing
import Bracework.Proofs.Schedule.Snapshots

namespace Bracework

/-! ## Completed plugins -/

/-- The plugins that complete one after the other, each with the tree it leaves: all of them, or
those before the first that fails. -/
def PluginRef.completed (c : PluginContext) :
    List (PluginRef Id) → Template → List (String × Template)
  | [], _ => []
  | p :: ps, t =>
      match (p.applyOnce c t).run with
      | .error _ => []
      | .ok t' => (p.name, t') :: PluginRef.completed c ps t'

/-- The plugins that complete on a source. -/
def ResolvedOptions.completed (o : ResolvedOptions Id) (source : String) :
    List (String × Template) :=
  match Template.parse source (o.moduleName.getD SourceContext.defaultName) with
  | .error _ => []
  | .ok t => PluginRef.completed o.context o.lineup t

/-- The snapshots that a compile of a source takes: one for each plugin that completes, numbered
from 1. -/
def ResolvedOptions.snapshots (o : ResolvedOptions Id) (source : String) : List Snapshot :=
  numbered (o.completed source)

/-- Snapshots of completed plugins that are numbered from behind a number. -/
def numberedFrom (n : Nat) : List (String × Template) → List Snapshot
  | [] => []
  | (plugin, t) :: done => ⟨n + 1, plugin, t.print⟩ :: numberedFrom (n + 1) done

theorem numberedFrom_eq_mapIdx (n : Nat) (done : List (String × Template)) :
    numberedFrom n done = done.mapIdx fun i entry => ⟨n + i + 1, entry.1, entry.2.print⟩ := by
  induction done generalizing n with
  | nil => rfl
  | cons entry done ih =>
      obtain ⟨plugin, t⟩ := entry
      rw [numberedFrom, List.mapIdx_cons, ih (n + 1)]
      simp only [Nat.add_zero, Nat.add_right_comm n 1, Nat.add_assoc]

theorem ResolvedOptions.snapshots_eq (o : ResolvedOptions Id) (source : String) :
    o.snapshots source = numberedFrom 0 (o.completed source) := by
  rw [numberedFrom_eq_mapIdx, snapshots, numbered]
  simp only [Nat.zero_add]

theorem lt_index_of_mem_numberedFrom {n : Nat} {done : List (String × Template)} {s : Snapshot}
    (h : s ∈ numberedFrom n done) : n < s.index := by
  induction done generalizing n with
  | nil => cases h
  | cons entry done ih =>
      rcases List.mem_cons.mp h with rfl | h
      · exact Nat.lt_succ_self n
      · exact Nat.lt_of_succ_lt (ih h)

/-- No two snapshots have the same number. -/
theorem nodup_index_numberedFrom (n : Nat) (done : List (String × Template)) :
    ((numberedFrom n done).map (·.index)).Nodup := by
  induction done generalizing n with
  | nil => exact List.nodup_nil
  | cons entry done ih =>
      rw [numberedFrom, List.map_cons, List.nodup_cons]
      refine ⟨fun hmem => ?_, ih (n + 1)⟩
      obtain ⟨s, hs, hindex⟩ := List.mem_map.mp hmem
      exact absurd hindex (Nat.ne_of_gt (lt_index_of_mem_numberedFrom hs))

namespace CommandLine

/-! ## Traced computations -/

section
variable {ε ε' α β : Type}

/-- A run of a traced computation: its result, the snapshots that are kept, and the files. -/
def runTraced (x : ExceptT ε (Traced (StateM FileTree)) α) (taken : List Snapshot)
    (t : FileTree) : (Except ε α × List Snapshot) × FileTree :=
  (x.run.run taken).run t

variable {x : ExceptT ε (Traced (StateM FileTree)) α} {taken taken' : List Snapshot}
  {t t' : FileTree}

theorem runTraced_bind_of_ok {a : α} (h : runTraced x taken t = ((.ok a, taken'), t'))
    (k : α → ExceptT ε (Traced (StateM FileTree)) β) :
    runTraced (x >>= k) taken t = runTraced (k a) taken' t' := by
  rw [runTraced, ExceptT.run_bind, StateT.run_bind, StateT.run_bind]
  rw [runTraced] at h
  rw [h]
  rfl

theorem runTraced_bind_of_error {e : ε} (h : runTraced x taken t = ((.error e, taken'), t'))
    (k : α → ExceptT ε (Traced (StateM FileTree)) β) :
    runTraced (x >>= k) taken t = ((.error e, taken'), t') := by
  rw [runTraced, ExceptT.run_bind, StateT.run_bind, StateT.run_bind]
  rw [runTraced] at h
  rw [h]
  rfl

theorem runTraced_adapt {r : Except ε α} (h : runTraced x taken t = ((r, taken'), t'))
    (g : ε → ε') : runTraced (x.adapt g) taken t = ((r.mapError g, taken'), t') := by
  show (((runTraced x taken t).1.1.mapError g, (runTraced x taken t).1.2),
    (runTraced x taken t).2) = _
  rw [h]

/-- What has no effect takes no snapshot and changes no file. -/
theorem runTraced_quiet (x : ExceptT ε Id α) (taken : List Snapshot) (t : FileTree) :
    runTraced (quiet x) taken t = ((x.run, taken), t) := rfl

end

/-! ## Plugins -/

section
variable {folder? : Option String} {context : PluginContext}

/-- The snapshots that are kept once there is one more, if there is a folder for them. -/
def keptAfter (folder? : Option String) (taken : List Snapshot) (s : Snapshot) : List Snapshot :=
  match folder? with
  | none => taken
  | some _ => taken ++ [s]

theorem run_start (o : ResolvedOptions (Traced (StateM FileTree))) (t : FileTree) :
    runTraced ((tracingCompiler FileTree.access folder?).observe fun ob => ob.start o) [] t =
      ((.ok (), []), t) := by
  cases folder? <;> rfl

theorem run_before (plugin : String) (tree : Template) (taken : List Snapshot) (t : FileTree) :
    runTraced ((tracingCompiler FileTree.access folder?).observe fun ob => ob.before plugin tree)
      taken t = ((.ok (), taken), t) := by
  cases folder? <;> rfl

theorem run_observeAfter {plugin : String} {tree : Template} {taken : List Snapshot} {t : FileTree}
    {s : Snapshot} (hs : ∀ folder ∈ folder?, Snapshot.next taken plugin tree = s)
    (h : ∀ folder ∈ folder?, t.CanKeep folder s) :
    runTraced ((tracingCompiler FileTree.access folder?).observe fun ob => ob.after plugin tree)
      taken t = ((.ok (), keptAfter folder? taken s), t.traced folder? [s]) := by
  cases folder? with
  | none => rfl
  | some folder =>
      have hafter : runTraced ((traceObserver FileTree.access folder).after plugin tree) taken t =
          ((.ok (), taken ++ [s]), FileTree.keep folder t s) :=
        FileTree.run_after (hs folder rfl) (h folder rfl)
      have hadapted := runTraced_adapt hafter
        (CompileError.observer (traceObserver FileTree.access folder).name)
      exact runTraced_bind_of_ok hadapted fun _ => pure ()

/-- A plugin that fails leaves no snapshot. -/
theorem run_step_of_error {p : SelectedPlugin (Traced (StateM FileTree))} {q : PluginRef Id}
    (hpq : Twins p.plugin q) {tree : Template} {e : PluginError}
    (h : (q.applyOnce context tree).run = .error e) (taken : List Snapshot) (t : FileTree) :
    runTraced ((tracingCompiler FileTree.access folder?).step context tree p) taken t =
      ((.error (.plugin e), taken), t) := by
  have happly := runTraced_adapt (runTraced_quiet (q.applyOnce context tree) taken t)
    CompileError.plugin
  rw [h] at happly
  rw [Compiler.step, runTraced_bind_of_ok (run_before p.plugin.name tree taken t), hpq.applyOnce]
  exact runTraced_bind_of_error happly _

/-- A plugin that completes leaves its snapshot. -/
theorem run_step_of_ok {p : SelectedPlugin (Traced (StateM FileTree))} {q : PluginRef Id}
    (hpq : Twins p.plugin q) {tree tree' : Template}
    (h : (q.applyOnce context tree).run = .ok tree') {taken : List Snapshot} {t : FileTree}
    {s : Snapshot} (hs : ∀ folder ∈ folder?, Snapshot.next taken q.name tree' = s)
    (hkeep : ∀ folder ∈ folder?, t.CanKeep folder s) :
    runTraced ((tracingCompiler FileTree.access folder?).step context tree p) taken t =
      ((.ok tree', keptAfter folder? taken s), t.traced folder? [s]) := by
  have happly := runTraced_adapt (runTraced_quiet (q.applyOnce context tree) taken t)
    CompileError.plugin
  rw [h] at happly
  rw [Compiler.step, runTraced_bind_of_ok (run_before p.plugin.name tree taken t), hpq.applyOnce,
    runTraced_bind_of_ok happly, hpq.name, runTraced_bind_of_ok (run_observeAfter hs hkeep)]
  rfl

theorem FileTree.traced_cons (t : FileTree) (s : Snapshot) (snapshots : List Snapshot) :
    t.traced folder? (s :: snapshots) = (t.traced folder? [s]).traced folder? snapshots := by
  cases folder? <;> rfl

theorem FileTree.CanKeep.traced {t : FileTree} {s s' : Snapshot}
    (h : ∀ folder ∈ folder?, t.CanKeep folder s) (h' : ∀ folder ∈ folder?, t.CanKeep folder s') :
    ∀ folder ∈ folder?, (t.traced folder? [s]).CanKeep folder s' := by
  rintro folder rfl
  exact (h folder rfl).after (h' folder rfl)

/-- Plugins come to what they come to without a trace, and leave the snapshots of those that
complete. -/
theorem run_plugins {ps : List (SelectedPlugin (Traced (StateM FileTree)))}
    {qs : List (PluginRef Id)} (hps : TwinLists (ps.map (·.plugin)) qs) (tree : Template)
    (taken : List Snapshot) (t : FileTree) {n : Nat}
    (hcount : ∀ folder ∈ folder?, taken.length = n)
    (hkeep : ∀ folder ∈ folder?, ∀ s ∈ numberedFrom n (PluginRef.completed context qs tree),
      t.CanKeep folder s) :
    ∃ taken', runTraced (ps.foldlM ((tracingCompiler FileTree.access folder?).step context) tree)
        taken t =
      ((((PluginRef.applyAll qs context tree).adapt .plugin).run, taken'),
        t.traced folder? (numberedFrom n (PluginRef.completed context qs tree))) := by
  -- The snapshots already taken count as `n`, which the next number is made from; without a
  -- folder none are taken, and then their number does not matter.
  induction ps generalizing qs tree taken t n with
  | nil =>
      cases hps
      refine ⟨taken, ?_⟩
      cases folder? <;> rfl
  | cons p ps ih =>
      cases hps with
      | cons hp hps =>
          rename_i q qs
          rw [List.foldlM_cons, PluginRef.applyAll, List.foldlM_cons, adapt_bind]
          rw [PluginRef.completed] at hkeep ⊢
          cases happly : q.applyOnce context tree using settled_cases with
          | error e =>
              refine ⟨taken, ?_⟩
              rw [runTraced_bind_of_error (run_step_of_error hp happly taken t)]
              cases folder? <;> rfl
          | ok tree' =>
              rw [happly] at hkeep
              let s : Snapshot := ⟨n + 1, q.name, tree'.print⟩
              have hs : ∀ folder ∈ folder?, Snapshot.next taken q.name tree' = s := by
                intro folder hfolder
                rw [Snapshot.next, hcount folder hfolder]
              have hfirst : ∀ folder ∈ folder?, t.CanKeep folder s :=
                fun folder hfolder => hkeep folder hfolder s List.mem_cons_self
              have hcount' : ∀ folder ∈ folder?, (keptAfter folder? taken s).length = n + 1 := by
                rintro folder rfl
                rw [keptAfter, List.length_append, hcount folder rfl]
                rfl
              obtain ⟨taken', hrest⟩ := ih hps tree' (keptAfter folder? taken s)
                (t.traced folder? [s]) hcount' fun folder hfolder s' hs' =>
                  FileTree.CanKeep.traced hfirst
                    (fun folder hfolder => hkeep folder hfolder s' (List.mem_cons_of_mem s hs'))
                    folder hfolder
              refine ⟨taken', ?_⟩
              rw [runTraced_bind_of_ok (run_step_of_ok hp happly hs hfirst), hrest]
              exact Prod.ext rfl (t.traced_cons s _).symm

/-! ## Whole compiles -/

variable {o : ResolvedOptions (Traced (StateM FileTree))} {o' : ResolvedOptions Id}

theorem run_transformResolved (h : TwinResolved o o') (source : String) (t : FileTree)
    (hkeep : ∀ folder ∈ folder?, ∀ s ∈ o'.snapshots source, t.CanKeep folder s) :
    ∃ taken, runTraced ((tracingCompiler FileTree.access folder?).transformResolved source o) [] t =
      (((o'.treeOf source).run, taken), t.traced folder? (o'.snapshots source)) := by
  have hname : o.moduleName = o'.moduleName := congrArg PluginContext.moduleName h.context
  have hread := runTraced_adapt (runTraced_quiet (.mk (pure (Template.parse source
    (o'.moduleName.getD SourceContext.defaultName))) : ExceptT SourceError Id Template) [] t)
      CompileError.parse
  rw [ResolvedOptions.snapshots_eq, ResolvedOptions.completed] at hkeep ⊢
  rw [Compiler.transformResolved_eq, runTraced_bind_of_ok (run_start o t), ResolvedOptions.treeOf]
  have hreader : (tracingCompiler FileTree.access folder?).read source o =
      quiet (.mk (pure (Template.parse source
        (o'.moduleName.getD SourceContext.defaultName)))) := by
    rw [← hname]
    rfl
  rw [hreader]
  cases hparse : Template.parse source (o'.moduleName.getD SourceContext.defaultName) with
  | error e =>
      rw [hparse] at hread
      refine ⟨[], ?_⟩
      rw [runTraced_bind_of_error hread]
      cases folder? <;> rfl
  | ok tree =>
      rw [hparse] at hread hkeep
      obtain ⟨taken, hplugins⟩ := run_plugins h.lineup tree [] t (fun _ _ => rfl) hkeep
      refine ⟨taken, ?_⟩
      rw [runTraced_bind_of_ok hread, h.context]
      exact hplugins

/-- A traced compile comes to the program that the source comes to, and leaves the snapshots of
the plugins that complete. -/
theorem run_compileResolved (h : TwinResolved o o') (source : String) (t : FileTree)
    (hkeep : ∀ folder ∈ folder?, ∀ s ∈ o'.snapshots source, t.CanKeep folder s) :
    ∃ taken, runTraced ((tracingCompiler FileTree.access folder?).compileResolved source o) [] t =
      (((o'.programOf source).run, taken), t.traced folder? (o'.snapshots source)) := by
  obtain ⟨taken, htransform⟩ := run_transformResolved h source t hkeep
  refine ⟨taken, ?_⟩
  rw [Compiler.compileResolved, ResolvedOptions.programOf]
  cases htree : o'.treeOf source using settled_cases with
  | error e =>
      rw [htree] at htransform
      rw [runTraced_bind_of_error htransform]
      rfl
  | ok tree =>
      have hcompiled : tree.compiled o = tree.compiled o' := by
        obtain ⟨hname, -, hstrict, hmetadata⟩ := PluginContext.mk.inj h.context
        rw [Template.compiled, Template.compiled, hname, hstrict, hmetadata]
      rw [htree] at htransform
      rw [runTraced_bind_of_ok htransform]
      show runTraced ((quiet (.mk (pure (tree.compiled o)))).adapt CompileError.generate) _ _ = _
      rw [hcompiled]
      exact runTraced_adapt (runTraced_quiet _ _ _) _

/-- What a source compiles to under tracing. -/
theorem run_compileSource {registry : Registry (Traced (StateM FileTree))}
    {registry' : Registry Id} (hregistry : TwinRegistries registry registry')
    {o : CompileOptions (Traced (StateM FileTree))} {o' : CompileOptions Id}
    (ho : TwinOptions o o') (source : String) (t : FileTree)
    (hkeep : ∀ folder ∈ folder?,
      ∀ s ∈ (Compiler.builtin.resolve registry' o').snapshots source,
        t.CanKeep folder s) :
    ∃ plugins, (compileSource FileTree.access registry o folder? source).run.run t =
      (((Compiler.builtin.resolve registry' o').programOf source).run.map
          fun program => (program.print, plugins),
        t.traced folder? ((Compiler.builtin.resolve registry' o').snapshots source)) := by
  obtain ⟨taken, hrun⟩ := run_compileResolved (ho.resolve hregistry) source t hkeep
  exact ⟨(o.resolve Catalogue.defaults registry).plugins.flatten.length, run_bind_of_eq hrun _⟩

end

end CommandLine

end Bracework
