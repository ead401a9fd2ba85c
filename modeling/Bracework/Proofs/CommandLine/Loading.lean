/-
The command line — the configuration, the registry and the options of a request.

What a request finds is settled by the tree of files alone: `FileTree.load` says what
it is without a monad.  To load it changes no file, and whatever monad the plugins
are to run in, what is registered are twins.
-/
import Bracework.CommandLine.Command
import Bracework.Proofs.Compile.Quiet
import Bracework.Proofs.Schedule.Driver

namespace Bracework.CommandLine

/-! ## Options -/

theorem PipelineRequest.twinOptions {n : Type → Type} [Monad n] (r : PipelineRequest) (c : Config) :
    TwinOptions (r.options c : CompileOptions n) (r.options c) where
  isProduction := rfl
  plugins s := by
    cases s with
    | ast => exact .nil
  moduleName := rfl
  strictMode := rfl
  metadata := rfl

theorem twinOptions_namedAfter {n : Type → Type} [Monad n] {o : CompileOptions n}
    {o' : CompileOptions Id} (h : TwinOptions o o') (path : String) :
    TwinOptions (namedAfter path o) (namedAfter path o') where
  isProduction := h.isProduction
  plugins := h.plugins
  moduleName := by rw [namedAfter, namedAfter, h.moduleName]
  strictMode := h.strictMode
  metadata := h.metadata

/-! ## Configurations -/

namespace FileTree

/-- The configuration that a path leads to. -/
def configAt (t : FileTree) (path : String) : Except ConfigError Config :=
  match t.read path with
  | some text => Config.parse text path
  | none => .error (.unreadable path)

/-- The configuration of a tree: the one asked for, or else the usual one if it is there. -/
def config (t : FileTree) (path? : Option String) : Except ConfigError Config :=
  match path? with
  | some path => t.configAt path
  | none => if t.isThere Config.defaultName then t.configAt Config.defaultName else .ok {}

/-- What a request finds in a tree. -/
def load (t : FileTree) (r : PipelineRequest) :
    Except ConfigError (Registry Id × CompileOptions Id) := do
  let c ← t.config r.config?
  let registry ← c.register .empty
  return (registry, r.options c)

/-- What a request finds, when it finds something. -/
theorem load_eq_ok_iff {t : FileTree} {r : PipelineRequest}
    {loaded : Registry Id × CompileOptions Id} :
    t.load r = .ok loaded ↔
      ∃ c, t.config r.config? = .ok c ∧ c.register .empty = .ok loaded.1 ∧
        loaded.2 = r.options c := by
  obtain ⟨registry, o⟩ := loaded
  rw [load]
  cases t.config r.config? with
  | error e =>
      constructor
      · intro h
        cases h
      · rintro ⟨c, ⟨⟩, -⟩
  | ok c =>
      show (c.register .empty >>= fun registry => pure (registry, r.options c)) = _ ↔ _
      cases hregister : (c.register .empty : Except ConfigError (Registry Id)) with
      | error e =>
          constructor
          · intro h
            cases h
          · rintro ⟨c', ⟨⟩, h, -⟩
            rw [hregister] at h
            cases h
      | ok registry' =>
          constructor
          · intro h
            cases h
            exact ⟨c, rfl, hregister, rfl⟩
          · rintro ⟨c', ⟨⟩, h, rfl⟩
            rw [hregister] at h
            cases h
            rfl

theorem run_readConfig (t : FileTree) (path : String) :
    (access.readConfig path).run.run t = (t.configAt path, t) := by
  show ((match t.read path with
    | some text => pure (Config.parse text path)
    | none => pure (.error (.unreadable path)) : StateM FileTree _)).run t = _
  rw [configAt]
  cases t.read path with
  | none => rfl
  | some text => rfl

/-- To read a configuration changes no file. -/
theorem run_config (t : FileTree) (path? : Option String) :
    (access.config path?).run.run t = (t.config path?, t) := by
  cases path? with
  | some path => exact t.run_readConfig path
  | none =>
      show ((if t.isThere Config.defaultName then access.readConfig Config.defaultName
        else pure {} : ExceptT ConfigError (StateM FileTree) Config)).run.run t = _
      rw [config]
      split
      · exact t.run_readConfig Config.defaultName
      · rfl

/-- What a request loads are twins of what it finds, and no file is changed. -/
theorem run_load {n : Type → Type} [Monad n] [LawfulMonad n] (t : FileTree) (r : PipelineRequest) :
    ∃ loaded, (r.load n access).run.run t = (loaded, t) ∧
      Settles (fun found found' => TwinRegistries found.1 found'.1 ∧ TwinOptions found.2 found'.2)
        loaded (t.load r) := by
  have hrun : (r.load n access).run.run t = (do
      let c ← t.config r.config?
      let registry ← (c.register .empty : Except ConfigError (Registry n))
      return (registry, r.options c), t) := by
    have hconfig := t.run_config r.config?
    rw [PipelineRequest.load]
    cases hc : t.config r.config? with
    | error e => exact run_bind_of_error (hc ▸ hconfig) _
    | ok c =>
        rw [run_bind_of_ok (hc ▸ hconfig)]
        have hregister : (ExceptT.mk (pure (c.register .empty)) :
            ExceptT ConfigError (StateM FileTree) (Registry n)).run.run t =
              (c.register .empty, t) := rfl
        show _ = (c.register .empty >>= fun registry => pure (registry, r.options c), t)
        cases hr : (c.register .empty : Except ConfigError (Registry n)) with
        | error e => exact run_bind_of_error (hr ▸ hregister) _
        | ok registry => exact run_bind_of_ok (hr ▸ hregister) _
  refine ⟨_, hrun, (Settles.refl (t.config r.config?)).bind ?_⟩
  rintro c _ rfl
  exact (c.register_twins .empty).bind fun registry registry' h =>
    .ok ⟨h, r.twinOptions c⟩

end FileTree

end Bracework.CommandLine
