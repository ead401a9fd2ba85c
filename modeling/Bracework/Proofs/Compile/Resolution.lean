/-
Compiling — which plugins options resolve to, in one mode and in the other.

A resolved list has three parts, and only the first depends on the mode.  The two
modes are related entry by entry: `InModes` reads the plugins of both off the
entries, without the function that picks the active ones.  An entry for debug mode
leaves no gap in production, so a plugin that stays moves forward by as many places
as there are such entries before its own.
-/
import Mathlib.Data.List.Basic
import Mathlib.Data.List.Induction
import Bracework.Compile.Options
import Bracework.Proofs.Plugins.History

namespace Bracework

variable {m : Type → Type}

/-! ## The built-in part -/

/-- The plugins that entries stand for in debug mode, and what they become in production:
a plugin for debug mode only is left out, and the production member of a pair takes the
place of the other. -/
inductive InModes :
    List (DefaultEntry m) → List (PluginRef m) → List (PluginRef m) → Prop
  | none : InModes [] [] []
  | always {entries : List (DefaultEntry m)} {debug production : List (PluginRef m)}
      {p : PluginRef m} :
      InModes entries debug production →
      InModes (.always p :: entries) (p :: debug) (p :: production)
  | debugOnly {entries : List (DefaultEntry m)} {debug production : List (PluginRef m)}
      {p : PluginRef m} :
      InModes entries debug production →
      InModes (.debugOnly p :: entries) (p :: debug) production
  | pair {entries : List (DefaultEntry m)} {debug production : List (PluginRef m)}
      {p q : PluginRef m} :
      InModes entries debug production →
      InModes (.pair p q :: entries) (p :: debug) (q :: production)

namespace DefaultEntry

/-- Whether an entry is for debug mode only. -/
def isDebugOnly : DefaultEntry m → Bool
  | .debugOnly _ => true
  | _ => false

/-- An entry has a plugin as its element in production mode. -/
def HasInProduction (entry : DefaultEntry m) (p : PluginRef m) : Prop :=
  entry = .always p ∨ ∃ debug, entry = .pair debug p

end DefaultEntry

/-- How many entries before an index stay in production mode. -/
def stayingBefore (entries : List (DefaultEntry m)) (i : Nat) : Nat :=
  (entries.take i).countP fun entry => !entry.isDebugOnly

theorem stayingBefore_cons (entry : DefaultEntry m) (entries : List (DefaultEntry m)) (i : Nat) :
    stayingBefore (entry :: entries) (i + 1) =
      stayingBefore entries i + if entry.isDebugOnly then 0 else 1 := by
  rw [stayingBefore, List.take_succ_cons, List.countP_cons, stayingBefore]
  cases entry.isDebugOnly <;> rfl

/-- The active plugins are those that the entries stand for. -/
theorem inModes_active (entries : List (DefaultEntry m)) :
    InModes entries (entries.filterMap (·.active? false))
      (entries.filterMap (·.active? true)) := by
  induction entries with
  | nil => exact .none
  | cons entry entries ih =>
      cases entry with
      | always p => exact .always ih
      | debugOnly p => exact .debugOnly ih
      | pair debug production => exact .pair ih

/-- An entry that stays has its plugin behind those of the entries before it that stay. -/
theorem InModes.getElem?_production {entries : List (DefaultEntry m)}
    {debug production : List (PluginRef m)} (h : InModes entries debug production) {i : Nat}
    {entry : DefaultEntry m} {p : PluginRef m} (hentry : entries[i]? = some entry)
    (hp : entry.HasInProduction p) : production[stayingBefore entries i]? = some p := by
  induction h generalizing i with
  | none => exact nomatch hentry
  | @always entries debug production q _ ih =>
      cases i with
      | zero =>
          obtain rfl := Option.some.inj hentry
          rcases hp with hp | ⟨_, hp⟩
          · obtain rfl := DefaultEntry.always.inj hp
            rfl
          · exact nomatch hp
      | succ i =>
          rw [stayingBefore_cons]
          exact ih hentry
  | @debugOnly entries debug production q _ ih =>
      cases i with
      | zero =>
          obtain rfl := Option.some.inj hentry
          rcases hp with hp | ⟨_, hp⟩ <;> exact nomatch hp
      | succ i =>
          rw [stayingBefore_cons]
          exact ih hentry
  | @pair entries debug production q q' _ ih =>
      cases i with
      | zero =>
          obtain rfl := Option.some.inj hentry
          rcases hp with hp | ⟨_, hp⟩
          · exact nomatch hp
          · obtain ⟨-, rfl⟩ := DefaultEntry.pair.inj hp
            rfl
      | succ i =>
          rw [stayingBefore_cons]
          exact ih hentry

/-! ## The part for one compile -/

/-- The plugins of a list at the indices where they are mentioned for the first time. -/
def firstMentions (plugins : List (PluginRef m)) : List (PluginRef m) :=
  (plugins.zipIdx.filter fun (p, i) => !(plugins.take i).contains p).map Prod.fst

theorem firstMentions_snoc (plugins : List (PluginRef m)) (p : PluginRef m) :
    firstMentions (plugins ++ [p]) =
      firstMentions plugins ++ [p].filter fun q => !plugins.contains q := by
  have hbefore : (plugins.zipIdx.filter fun (q, i) => !((plugins ++ [p]).take i).contains q) =
      plugins.zipIdx.filter fun (q, i) => !(plugins.take i).contains q := by
    refine List.filter_congr fun (q, i) hmem => ?_
    have hlt : i < plugins.length := by
      simpa using List.snd_lt_of_mem_zipIdx hmem
    show (!((plugins ++ [p]).take i).contains q) = !(plugins.take i).contains q
    rw [List.take_append_of_le_length (Nat.le_of_lt hlt)]
  rw [firstMentions, List.zipIdx_append, List.filter_append, hbefore, List.map_append,
    firstMentions]
  cases h : plugins.contains p <;> simp [h]

theorem firstOccurrences_snoc (plugins : List (PluginRef m)) (p : PluginRef m) :
    firstOccurrences (plugins ++ [p]) = Registry.add p (firstOccurrences plugins) := by
  rw [firstOccurrences, List.foldl_append]
  rfl

/-- A list without its repetitions has the same plugins. -/
theorem contains_firstOccurrences (plugins : List (PluginRef m)) (q : PluginRef m) :
    (firstOccurrences plugins).contains q = plugins.contains q := by
  induction plugins using List.reverseRecOn with
  | nil => rfl
  | append_singleton plugins p ih =>
      have hadded := PluginRef.contains_filter [p] (p := q)
        (fun x => !(firstOccurrences plugins).contains x) fun x hsame => by
          rw [PluginRef.contains_congr hsame]
      rw [firstOccurrences_snoc, Registry.add_eq, List.contains_append, hadded,
        List.contains_append, ih]
      cases plugins.contains q <;> simp

theorem firstOccurrences_eq (plugins : List (PluginRef m)) :
    firstOccurrences plugins = firstMentions plugins := by
  induction plugins using List.reverseRecOn with
  | nil => rfl
  | append_singleton plugins p ih =>
      simp only [firstOccurrences_snoc, Registry.add_eq, firstMentions_snoc, ← ih,
        contains_firstOccurrences]

/-! ## Resolving again and again -/

/-- What options are resolved against, by whoever resolves them. -/
structure Resolver (m : Type → Type) where
  defaults : DefaultSet m
  registry : Registry m

/-- Resolves options against what is there. -/
def Resolver.resolve (o : CompileOptions m) : StateM (Resolver m) (ResolvedOptions m) := do
  let resolver ← get
  return o.resolve resolver.defaults resolver.registry

/-- Options in a row resolve to what each would resolve to alone, and leave what they are
resolved against as it is. -/
theorem Resolver.run_mapM_resolve (resolver : Resolver m) (os : List (CompileOptions m)) :
    (os.mapM Resolver.resolve).run resolver =
      (os.map (·.resolve resolver.defaults resolver.registry), resolver) := by
  induction os with
  | nil => rfl
  | cons o os ih =>
      have hfirst : (Resolver.resolve o).run resolver =
          (o.resolve resolver.defaults resolver.registry, resolver) := rfl
      rw [List.mapM_cons, StateT.run_bind, hfirst]
      show ((os.mapM Resolver.resolve >>= fun rest => pure (_ :: rest)).run resolver) = _
      rw [StateT.run_bind, ih]
      rfl

/-! ## The two modes -/

/-- The same options in a mode. -/
def CompileOptions.inMode (o : CompileOptions m) (isProduction : Bool) : CompileOptions m :=
  { o with isProduction }

theorem CompileOptions.get_resolve (o : CompileOptions m) (d : DefaultSet m) (r : Registry m)
    (s : Stage) :
    (o.resolve d r).plugins.get s =
      (d.plugins s o.isProduction).map (⟨·, .builtin⟩) ++ (r.get s).map (⟨·, .registered⟩) ++
        (firstMentions (o.plugins.get s)).map (⟨·, .adHoc⟩) := by
  rw [resolve, PerStage.get_ofFn, selectPlugins, firstOccurrences_eq]

/-- Options resolve to the plugins of the built-in entries, then to those of the registry and
then to those that are added, each where it is mentioned first.  Only the built-in part depends
on the mode: `debug` and `production` are related entry by entry, and an entry that stays in
production is found there behind the ones before it that stay.  However many other options are
resolved in between, each gets what it would get alone. -/
theorem CompileOptions.resolve_modes (d : DefaultSet m) (r : Registry m) (o : CompileOptions m)
    (s : Stage) :
    (∃ debug production, InModes (d.get s) debug production ∧
      (∀ isProduction, ((o.inMode isProduction).resolve d r).plugins.get s =
        (if isProduction then production else debug).map (⟨·, .builtin⟩) ++
          (r.get s).map (⟨·, .registered⟩) ++
          (firstMentions (o.plugins.get s)).map (⟨·, .adHoc⟩))) ∧
    (∀ i entry p, (d.get s)[i]? = some entry → entry.HasInProduction p →
      (((o.inMode true).resolve d r).plugins.get s)[stayingBefore (d.get s) i]? =
        some ⟨p, .builtin⟩) ∧
    ∀ os : List (CompileOptions m),
      (os.mapM Resolver.resolve).run ⟨d, r⟩ = (os.map (·.resolve d r), ⟨d, r⟩) := by
  have hmodes := inModes_active (d.get s)
  refine ⟨⟨_, _, hmodes, fun isProduction => ?_⟩, fun i entry p hentry hp => ?_,
    Resolver.run_mapM_resolve ⟨d, r⟩⟩
  · rw [get_resolve]
    cases isProduction <;> rfl
  · have hpart := hmodes.getElem?_production hentry hp
    have hlist := congrArg (Option.map (SelectedPlugin.mk · .builtin)) hpart
    rw [← List.getElem?_map] at hlist
    have hlt := (List.getElem?_eq_some_iff.mp hlist).1
    rw [get_resolve, List.append_assoc]
    exact (List.getElem?_append_left hlt).trans hlist

end Bracework
