/-
Plugins — what a configuration registers.

The table of plugins is looked up as a whole before the first plugin is registered.  So
the registry, which is changed in place, stays as it is unless all stages and plugins of
the table are known, and then registering cannot fail any more.  What it adds to a list
are the plugins that were not there, each where the table mentions it first; to do it
again adds none.
-/
import Bracework.Project.Config
import Bracework.Proofs.Compile.Resolution
import Bracework.Proofs.Schedule.Driver

namespace Bracework

variable {m : Type → Type}

/-! ## Additions to a list -/

namespace Registry

/-- The plugins of a list that another one lacks, each where it is mentioned first. -/
def additions (old plugins : List (PluginRef m)) : List (PluginRef m) :=
  (firstMentions plugins).filter fun p => !old.contains p

theorem contains_firstMentions (plugins : List (PluginRef m)) (p : PluginRef m) :
    (firstMentions plugins).contains p = plugins.contains p := by
  rw [← firstOccurrences_eq, contains_firstOccurrences]

/-- With its additions a list has all that it lacked. -/
theorem contains_append_additions (old plugins : List (PluginRef m)) (p : PluginRef m) :
    (old ++ additions old plugins).contains p = (old.contains p || plugins.contains p) := by
  have hnew := PluginRef.contains_filter (firstMentions plugins) (p := p)
    (fun q => !old.contains q) fun q hsame => by rw [PluginRef.contains_congr hsame]
  rw [List.contains_append, additions, hnew, contains_firstMentions]
  cases old.contains p <;> simp

/-- To add plugins one after the other adds those that are new. -/
theorem foldl_add (old plugins : List (PluginRef m)) :
    plugins.foldl (fun list p => add p list) old = old ++ additions old plugins := by
  induction plugins using List.reverseRecOn with
  | nil => exact (List.append_nil old).symm
  | append_singleton plugins p ih =>
      have hstep : additions old (plugins ++ [p]) = additions old plugins ++
          [p].filter fun q => !(old ++ additions old plugins).contains q := by
        simp only [contains_append_additions, Bool.not_or]
        rw [additions, firstMentions_snoc, List.filter_append, List.filter_filter, ← additions]
      rw [List.foldl_append, ih, hstep, ← List.append_assoc]
      exact add_eq p _

/-- What was added is no addition any more. -/
theorem additions_append_additions (old plugins : List (PluginRef m)) :
    additions (old ++ additions old plugins) plugins = [] := by
  refine List.filter_eq_nil_iff.mpr fun p hp => ?_
  have hmentioned : plugins.contains p = true := by
    rw [← contains_firstMentions, List.contains_iff_exists_mem_beq]
    exact ⟨p, hp, PluginRef.beq_self p⟩
  rw [contains_append_additions, hmentioned, Bool.or_true]
  exact Bool.false_ne_true

theorem ext_get {r r' : Registry m} (h : ∀ s, r.get s = r'.get s) : r = r' :=
  congrArg (fun list => (⟨⟨list⟩⟩ : Registry m)) (h .ast)

end Registry

/-- The plugins that are to be registered at a stage. -/
def Stage.plugins (s : Stage) (entries : List (Stage × PluginRef m)) : List (PluginRef m) :=
  (entries.filter (·.1 = s)).map Prod.snd

theorem Stage.plugins_cons (s s' : Stage) (p : PluginRef m) (entries : List (Stage × PluginRef m)) :
    s.plugins ((s', p) :: entries) =
      if s' = s then p :: s.plugins entries else s.plugins entries := by
  rw [plugins, plugins, List.filter_cons, apply_ite (List.map Prod.snd)]
  simp only [decide_eq_true_eq, List.map_cons]

theorem Stage.plugins_map (s s' : Stage) (plugins : List (PluginRef m)) :
    s.plugins (plugins.map (s', ·)) = if s' = s then plugins else [] := by
  induction plugins with
  | nil => exact (ite_self []).symm
  | cons p plugins ih =>
      rw [List.map_cons, plugins_cons, ih]
      split <;> rfl

theorem Registry.get_foldl_registerAt (entries : List (Stage × PluginRef m)) (r : Registry m)
    (s : Stage) :
    (entries.foldl (fun r (s, p) => r.registerAt s p) r).get s =
      r.get s ++ additions (r.get s) (s.plugins entries) := by
  rw [← foldl_add]
  induction entries generalizing r with
  | nil => rfl
  | cons entry entries ih =>
      obtain ⟨s', p⟩ := entry
      rw [List.foldl_cons, ih, get_registerAt, Stage.plugins_cons]
      by_cases h : s' = s
      · rw [if_pos h, if_pos h.symm, List.foldl_cons]
      · rw [if_neg h, if_neg (Ne.symm h)]

/-! ## The table -/

/-- Something that a table of plugins mentions. -/
inductive Mention where
  | stage (name : String)
  | plugin (name : String)

namespace Mention

/-- There is a stage, or an optional plugin, with the name that is mentioned. -/
def Known : Mention → Prop
  | .stage name => ∃ s : Stage, name = s.name
  | .plugin name => name ∈ Catalogue.optionalNames

/-- The complaint about a mention of something that there is not. -/
def complaint : Mention → ConfigError
  | .stage name => .unknownStage name
  | .plugin name => .unknownPlugin name Catalogue.optionalNames

/-- The mentions of an entry: its stage, then its plugins. -/
def ofEntry (entry : String × List String) : List Mention :=
  .stage entry.1 :: entry.2.map .plugin

instance : DecidablePred Known
  | .stage name => decidable_of_iff (name ∈ Stage.all.map Stage.name)
      (by simp [Known, Stage.mem_all, eq_comm])
  | .plugin name => inferInstanceAs (Decidable (name ∈ Catalogue.optionalNames))

/-- A result, unless one of some mentions is not known: then the complaint about the first. -/
def unlessUnknown {α : Type} (result : α) : List Mention → Except ConfigError α
  | [] => .ok result
  | x :: xs => if x.Known then unlessUnknown result xs else .error x.complaint

section
variable {α β γ : Type}

theorem unlessUnknown_of_all (result : α) {xs : List Mention} (h : ∀ x ∈ xs, x.Known) :
    unlessUnknown result xs = .ok result := by
  induction xs with
  | nil => rfl
  | cons x xs ih =>
      obtain ⟨hx, hxs⟩ := List.forall_mem_cons.mp h
      rw [unlessUnknown, if_pos hx, ih hxs]

theorem unlessUnknown_of_first (result : α) {before after : List Mention} {x : Mention}
    (h : ∀ y ∈ before, y.Known) (hx : ¬ x.Known) :
    unlessUnknown result (before ++ x :: after) = .error x.complaint := by
  induction before with
  | nil => exact if_neg hx
  | cons y before ih =>
      obtain ⟨hy, hbefore⟩ := List.forall_mem_cons.mp h
      rw [List.cons_append, unlessUnknown, if_pos hy, ih hbefore]

/-- What is looked up part by part is known if every part is. -/
theorem unlessUnknown_append (f : α → β → γ) (first : α) (second : β) (xs ys : List Mention) :
    (do let a ← unlessUnknown first xs; let b ← unlessUnknown second ys; pure (f a b)) =
      unlessUnknown (f first second) (xs ++ ys) := by
  induction xs with
  | nil =>
      induction ys with
      | nil => rfl
      | cons y ys ih =>
          by_cases hy : y.Known
          · simpa only [List.nil_append, unlessUnknown, if_pos hy] using ih
          · simp only [List.nil_append, unlessUnknown, if_neg hy]
            rfl
  | cons x xs ih =>
      by_cases hx : x.Known
      · simpa only [List.cons_append, unlessUnknown, if_pos hx] using ih
      · simp only [List.cons_append, unlessUnknown, if_neg hx]
        rfl

end

end Mention

section
variable [Monad m]

namespace Config

/-- The mentions of the table, in its order. -/
def mentions (c : Config) : List Mention := c.plugins.flatMap Mention.ofEntry

/-- The plugins that the table mentions for a stage, in its order. -/
def pluginsAt (c : Config) (s : Stage) : List (PluginRef m) :=
  c.plugins.flatMap fun (stage, names) =>
    if stage = s.name then names.filterMap Catalogue.optional? else []

/-- Registers the plugins of a configuration in a registry that is changed in place: they are all
looked up, and then one after the other is registered. -/
def registering (c : Config) : ExceptT ConfigError (StateM (Registry m)) Unit := do
  let plugins ← ExceptT.mk (pure c.resolvePlugins)
  forM plugins fun (s, p) => modify (·.registerAt s p)

end Config

/-! ## Looking plugins up -/

theorem Catalogue.mem_optionalNames_iff {name : String} :
    name ∈ optionalNames ↔ (optional? (m := m) name).isSome = true := by
  have hnames : optionalNames = (optional (m := m)).map PluginRef.name := rfl
  rw [hnames, optional?, List.find?_isSome, List.mem_map]
  simp only [beq_iff_eq]

theorem Catalogue.lookUp_eq (s : Stage) (names : List String) :
    (names.mapM fun name => return (s, ← optionalNamed (m := m) name)) =
      Mention.unlessUnknown ((names.filterMap optional?).map (s, ·)) (names.map .plugin) := by
  induction names with
  | nil => rfl
  | cons name names ih =>
      have hknown : (Mention.plugin name).Known ↔ (optional? (m := m) name).isSome = true :=
        mem_optionalNames_iff
      rw [List.mapM_cons, ih, List.map_cons, Mention.unlessUnknown]
      cases hfound : optional? (m := m) name with
      | none =>
          rw [hfound] at hknown
          rw [if_neg fun h => Bool.false_ne_true (hknown.mp h), optionalNamed, hfound]
          rfl
      | some p =>
          rw [hfound] at hknown
          rw [if_pos (hknown.mpr rfl), optionalNamed, hfound, List.filterMap_cons_some hfound,
            List.map_cons]
          exact Mention.unlessUnknown_append (fun _ rest => (s, p) :: rest) () _ [] _

/-- The plugins of an entry, with its stage. -/
def Catalogue.ofEntry (entry : String × List String) : List (Stage × PluginRef m) :=
  (Stage.ofName? entry.1).toList.flatMap fun s => (entry.2.filterMap optional?).map (s, ·)

theorem Catalogue.lookUpEntry_eq (entry : String × List String) :
    (do let s ← Stage.named entry.1
        entry.2.mapM fun name => return (s, ← optionalNamed (m := m) name)) =
      Mention.unlessUnknown (ofEntry entry) (Mention.ofEntry entry) := by
  obtain ⟨stage, names⟩ := entry
  rw [Mention.ofEntry, Mention.unlessUnknown]
  rcases Stage.eq_name_or_unknown stage with ⟨s, rfl⟩ | hstage
  · have hknown : (Mention.stage s.name).Known := ⟨s, rfl⟩
    have hentry : ofEntry (m := m) (s.name, names) = (names.filterMap optional?).map (s, ·) := by
      rw [ofEntry, Stage.ofName?_eq_some_iff.mpr rfl, Option.toList_some, List.flatMap_singleton]
    rw [if_pos hknown, hentry, ← lookUp_eq, Stage.named_name]
    rfl
  · have hunknown : ¬ (Mention.stage stage).Known := fun ⟨s, hs⟩ => hstage s hs
    rw [if_neg hunknown, Stage.named_of_unknown hstage]
    rfl

theorem Config.resolvePlugins_eq (c : Config) :
    c.resolvePlugins (m := m) =
      Mention.unlessUnknown (c.plugins.flatMap Catalogue.ofEntry) c.mentions := by
  rw [resolvePlugins, mentions]
  induction c.plugins with
  | nil => rfl
  | cons entry entries ih =>
      rw [List.mapM_cons, List.flatMap_cons, List.flatMap_cons,
        ← Mention.unlessUnknown_append (· ++ ·), ← ih, ← Catalogue.lookUpEntry_eq]
      simp only [bind_assoc, pure_bind, List.flatten_cons]

/-! ## Registering -/

theorem Config.plugins_ofEntry (c : Config) (s : Stage) :
    s.plugins (c.plugins.flatMap Catalogue.ofEntry) = c.pluginsAt (m := m) s := by
  rw [Stage.plugins, List.filter_flatMap, List.map_flatMap, pluginsAt]
  refine congrArg (c.plugins.flatMap ·) (funext fun (stage, names) => ?_)
  rw [Catalogue.ofEntry]
  rcases Stage.eq_name_or_unknown stage with ⟨s', rfl⟩ | hunknown
  · rw [Stage.ofName?_eq_some_iff.mpr rfl, Option.toList_some, List.flatMap_singleton]
    refine (s.plugins_map s' _).trans ?_
    exact if_congr Stage.name_inj.symm rfl rfl
  · have hnone : Stage.ofName? stage = none :=
      Option.eq_none_iff_forall_ne_some.mpr fun s' h => hunknown s' (Stage.ofName?_eq_some_iff.mp h)
    rw [hnone]
    exact (if_neg (hunknown s)).symm

theorem Config.run_registering (c : Config) (r : Registry m) :
    c.registering.run.run r =
      match c.register r with
      | .ok r' => (.ok (), r')
      | .error e => (.error e, r) := by
  have hall : ∀ (entries : List (Stage × PluginRef m)) (r : Registry m),
      (forM entries fun (s, p) => modify (·.registerAt s p) :
        ExceptT ConfigError (StateM (Registry m)) Unit).run.run r =
          (.ok (), entries.foldl (fun r (s, p) => r.registerAt s p) r) := by
    intro entries
    induction entries with
    | nil => exact fun _ => rfl
    | cons entry entries ih => exact fun r => ih (r.registerAt entry.1 entry.2)
  rw [registering, register]
  cases c.resolvePlugins (m := m) with
  | error e => rfl
  | ok entries => exact hall entries r

/-- Registering fails with the complaint about the first mention in the table of something that
there is not, and then the registry is as before.  If all is known, every list is as before with
the plugins at its end that it lacked, each where the table mentions it first, and to register
them again changes nothing. -/
theorem Config.register_allOrNothing (c : Config) (r : Registry m) :
    (∀ before x after, c.mentions = before ++ x :: after → (∀ y ∈ before, y.Known) → ¬ x.Known →
      c.register r = .error x.complaint ∧
        c.registering.run.run r = (.error x.complaint, r)) ∧
    ((∀ x ∈ c.mentions, x.Known) → ∃ r', c.register r = .ok r' ∧
      c.registering.run.run r = (.ok (), r') ∧
      (∀ s, r'.get s = r.get s ++ Registry.additions (r.get s) (c.pluginsAt s)) ∧
      c.register r' = .ok r' ∧ c.registering.run.run r' = (.ok (), r')) := by
  constructor
  · intro before x after hmentions hbefore hx
    have hregister : c.register r = .error x.complaint := by
      rw [register, resolvePlugins_eq, hmentions, Mention.unlessUnknown_of_first _ hbefore hx]
      rfl
    exact ⟨hregister, by rw [run_registering, hregister]⟩
  · intro hknown
    have hregister : ∀ r : Registry m, c.register r =
        .ok ((c.plugins.flatMap Catalogue.ofEntry).foldl (fun r (s, p) => r.registerAt s p) r) := by
      intro r
      rw [register, resolvePlugins_eq, Mention.unlessUnknown_of_all _ hknown]
      rfl
    generalize hr' : (c.plugins.flatMap Catalogue.ofEntry).foldl
      (fun r (s, p) => r.registerAt s p) r = r'
    have hlist : ∀ s, r'.get s = r.get s ++ Registry.additions (r.get s) (c.pluginsAt s) := by
      intro s
      rw [← hr', Registry.get_foldl_registerAt, plugins_ofEntry]
    have hfirst : c.register r = .ok r' := by rw [hregister, hr']
    have hagain : c.register r' = .ok r' := by
      rw [hregister]
      refine congrArg Except.ok (Registry.ext_get fun s => ?_)
      rw [Registry.get_foldl_registerAt, plugins_ofEntry, hlist,
        Registry.additions_append_additions, List.append_nil]
    exact ⟨r', hfirst, by rw [run_registering, hfirst], hlist, hagain,
      by rw [run_registering, hagain]⟩

end

/-- A registry with one plugin. -/
def Registry.single : Registry Id := ⟨⟨[.transform ⟨"Type", "own", fun _ t => pure t⟩ "own"]⟩⟩

/-- A table that mentions a plugin twice. -/
def Config.repeated : Config where
  plugins := [("ast", ["strip-test-selectors", "strip-test-selectors"])]

/-- A table with a stage that there is not, behind an entry that could be registered. -/
def Config.misplaced : Config where
  plugins := [("ast", ["strip-test-selectors"]), ("hir", []), ("ast", ["strip-all"])]

theorem Config.register_allOrNothing_tables :
    (∃ r', repeated.registering.run.run Registry.single = (.ok (), r') ∧
      (r'.get .ast).map PluginRef.name = ["own", "strip-test-selectors"] ∧
      repeated.registering.run.run r' = (.ok (), r')) ∧
    misplaced.registering.run.run Registry.single =
      (.error (.unknownStage "hir"), Registry.single) := by
  obtain ⟨-, hall⟩ := register_allOrNothing repeated Registry.single
  obtain ⟨hfirst, -⟩ := register_allOrNothing misplaced Registry.single
  obtain ⟨r', -, hrun, hlist, -, hagain⟩ := hall (by decide)
  refine ⟨⟨r', hrun, ?_, hagain⟩, ?_⟩
  · rw [hlist]
    decide
  · exact (hfirst [.stage "ast", .plugin "strip-test-selectors"] (.stage "hir")
      [.stage "ast", .plugin "strip-all"] rfl (by decide) (by decide)).2

end Bracework
