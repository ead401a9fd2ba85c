/-
Plugins — the plugins that come with the compiler are the same in every monad.

A command that reads and writes files runs its plugins in a monad with those files,
a program that calls the compiler runs them in none.  `Twins` relates the references
of the two: same identity, same name, and the one does nothing but what the other
comes to.  All plugins of the catalogue have twins.  Registering and selecting look
at identities and names only, so they take twins to twins.
-/
import Mathlib.Data.List.Forall2
import Bracework.Project.Config
import Bracework.Proofs.Plugins.Assertions
import Bracework.Proofs.Plugins.Edits

namespace Bracework

/-! ## Results without effects -/

section
variable {m : Type → Type} [Monad m] {ε ε' α β : Type}

/-- Without effects a computation comes to a value or to an error. -/
@[elab_as_elim]
theorem settled_cases {motive : ExceptT ε Id α → Prop} (ok : ∀ a, motive (pure a))
    (error : ∀ e, motive (.mk (.error e))) (x : ExceptT ε Id α) : motive x :=
  match x with
  | .ok a => ok a
  | .error e => error e

/-- A result, come to without any effect. -/
def quiet (x : ExceptT ε Id α) : ExceptT ε m α := .mk (pure x.run)

variable [LawfulMonad m]

theorem quiet_bind (x : ExceptT ε Id α) (f : α → ExceptT ε Id β) :
    (quiet (x >>= f) : ExceptT ε m β) = quiet x >>= fun a => quiet (f a) := by
  apply ExceptT.ext
  show pure (x >>= f).run = pure x.run >>= _
  rw [pure_bind]
  cases x using settled_cases with
  | ok a => rfl
  | error e => rfl

theorem quiet_adapt (x : ExceptT ε Id α) (g : ε → ε') :
    (quiet (x.adapt g) : ExceptT ε' m α) = (quiet x : ExceptT ε m α).adapt g := by
  apply ExceptT.ext
  show pure (x.adapt g).run = Except.mapError g <$> (pure x.run : m (Except ε α))
  rw [map_pure]
  rfl

end

/-! ## Twins -/

section
variable {m : Type → Type} [Monad m]

/-- Two references to one plugin, which does the same in both monads and has no effect. -/
structure Twins (p : PluginRef m) (q : PluginRef Id) : Prop where
  identity : p.identity = q.identity
  name : p.name = q.name
  applyOnce : ∀ c t, p.applyOnce c t = quiet (q.applyOnce c t)

theorem Twins.beq {p p' : PluginRef m} {q q' : PluginRef Id} (h : Twins p q) (h' : Twins p' q') :
    (p == p') = (q == q') := by
  show (p.identity == p'.identity) = (q.identity == q'.identity)
  rw [h.identity, h'.identity]

section
variable [LawfulMonad m]

theorem Edit.twins (e : Edit) : Twins (e.plugin (m := m)) e.plugin where
  identity := by cases e <;> rfl
  name := by cases e <;> rfl
  applyOnce c t := by
    rw [e.applyOnce_plugin, e.applyOnce_plugin]
    cases e <;> rfl

theorem Assertion.twins (a : Assertion) : Twins (a.plugin (m := m)) a.plugin where
  identity := by cases a <;> rfl
  name := by cases a <;> rfl
  applyOnce c t := by
    rw [a.applyOnce_plugin, a.applyOnce_plugin]
    cases a <;> rfl

end

/-! ## Lists of twins -/

/-- Lists of plugins that are twins, one by one. -/
abbrev TwinLists (ps : List (PluginRef m)) (qs : List (PluginRef Id)) : Prop :=
  List.Forall₂ Twins ps qs

theorem TwinLists.contains {ps : List (PluginRef m)} {qs : List (PluginRef Id)}
    (h : TwinLists ps qs) {p : PluginRef m} {q : PluginRef Id} (hp : Twins p q) :
    ps.contains p = qs.contains q := by
  induction h with
  | nil => rfl
  | cons hfirst _ ih => rw [List.contains_cons, List.contains_cons, hp.beq hfirst, ih]

theorem TwinLists.find? {ps : List (PluginRef m)} {qs : List (PluginRef Id)}
    (h : TwinLists ps qs) (name : String) :
    Option.Rel Twins (ps.find? (·.name == name)) (qs.find? (·.name == name)) := by
  induction h with
  | nil => exact .none
  | cons hfirst _ ih =>
      rw [List.find?_cons, List.find?_cons, hfirst.name]
      split
      · exact .some hfirst
      · exact ih

theorem TwinLists.add {ps : List (PluginRef m)} {qs : List (PluginRef Id)}
    (h : TwinLists ps qs) {p : PluginRef m} {q : PluginRef Id} (hp : Twins p q) :
    TwinLists (Registry.add p ps) (Registry.add q qs) := by
  rw [Registry.add, Registry.add, h.contains hp]
  split
  · exact h
  · exact List.rel_append h (.cons hp .nil)

/-- Registries with twins at every stage. -/
def TwinRegistries (r : Registry m) (r' : Registry Id) : Prop :=
  ∀ s, TwinLists (r.get s) (r'.get s)

theorem TwinRegistries.empty : TwinRegistries (.empty : Registry m) .empty := by
  intro s
  cases s with
  | ast => exact .nil

theorem TwinRegistries.registerAt {r : Registry m} {r' : Registry Id} (h : TwinRegistries r r')
    (s : Stage) {p : PluginRef m} {q : PluginRef Id} (hp : Twins p q) :
    TwinRegistries (r.registerAt s p) (r'.registerAt s q) := by
  intro s'
  show TwinLists ((r.plugins.modify s (Registry.add p)).get s')
    ((r'.plugins.modify s (Registry.add q)).get s')
  rw [PerStage.get_modify, PerStage.get_modify]
  split
  · exact (h s').add hp
  · exact h s'

end

/-! ## Settling alike -/

/-- Two results that are the same failure, or values that are related. -/
inductive Settles {ε α β : Type} (R : α → β → Prop) : Except ε α → Except ε β → Prop where
  | ok {a : α} {b : β} (h : R a b) : Settles R (.ok a) (.ok b)
  | error (e : ε) : Settles R (.error e) (.error e)

namespace Settles

variable {ε α β γ δ : Type} {R : α → β → Prop} {S : γ → δ → Prop}

theorem bind {x : Except ε α} {y : Except ε β} {f : α → Except ε γ} {g : β → Except ε δ}
    (h : Settles R x y) (hf : ∀ a b, R a b → Settles S (f a) (g b)) :
    Settles S (x >>= f) (y >>= g) := by
  cases h with
  | ok h => exact hf _ _ h
  | error e => exact .error e

theorem refl (x : Except ε α) : Settles Eq x x := by
  cases x with
  | ok a => exact .ok rfl
  | error e => exact .error e

theorem mapM {ι : Type} {f : ι → Except ε α} {g : ι → Except ε β}
    (h : ∀ i, Settles R (f i) (g i)) (is : List ι) :
    Settles (List.Forall₂ R) (is.mapM f) (is.mapM g) := by
  induction is with
  | nil => exact .ok .nil
  | cons i is ih =>
      rw [List.mapM_cons, List.mapM_cons]
      refine (h i).bind fun a b hab => ih.bind fun as bs habs => ?_
      exact .ok (.cons hab habs)

end Settles

/-! ## The catalogue -/

section
variable {m : Type → Type} [Monad m] [LawfulMonad m]

theorem Catalogue.defaults_twins (s : Stage) (isProduction : Bool) :
    TwinLists ((Catalogue.defaults (m := m)).plugins s isProduction)
      (Catalogue.defaults.plugins s isProduction) := by
  have hedits : ∀ edits : List Edit,
      TwinLists (edits.map (Edit.plugin (m := m))) (edits.map Edit.plugin) := by
    intro edits
    exact List.forall₂_map_left_iff.mpr
      (List.forall₂_map_right_iff.mpr (List.forall₂_same.mpr fun e _ => e.twins))
  have hassertions : ∀ assertions : List Assertion,
      TwinLists (assertions.map (Assertion.plugin (m := m))) (assertions.map Assertion.plugin) := by
    intro assertions
    exact List.forall₂_map_left_iff.mpr
      (List.forall₂_map_right_iff.mpr (List.forall₂_same.mpr fun a _ => a.twins))
  cases s with
  | ast =>
      cases isProduction with
      | true => exact hedits [.quotedBindings, .blockKeywords, .debugStatements]
      | false =>
          exact List.rel_append (hedits [.quotedBindings, .blockKeywords])
            (hassertions [.reservedArguments, .conditionalArguments, .debuggerArguments])

theorem Catalogue.optionalNamed_twins (name : String) :
    Settles Twins (Catalogue.optionalNamed (m := m) name) (Catalogue.optionalNamed name) := by
  have hall : TwinLists (Catalogue.optional (m := m)) Catalogue.optional :=
    .cons (Edit.twins .testSelectors) .nil
  have hfound : Option.Rel Twins (Catalogue.optional? (m := m) name) (Catalogue.optional? name) :=
    hall.find? name
  rw [optionalNamed, optionalNamed]
  generalize Catalogue.optional? (m := m) name = p? at hfound
  generalize Catalogue.optional? (m := Id) name = q? at hfound
  cases hfound with
  | none => exact .error _
  | some h => exact .ok h

/-! ## Configurations -/

/-- What a configuration registers is the same in every monad, and so is why it cannot. -/
theorem Config.register_twins (c : Config) {r : Registry m} {r' : Registry Id}
    (h : TwinRegistries r r') : Settles TwinRegistries (c.register r) (c.register r') := by
  let Paired (a : Stage × PluginRef m) (b : Stage × PluginRef Id) : Prop :=
    a.1 = b.1 ∧ Twins a.2 b.2
  have hnamed : ∀ entry : String × List String, Settles (List.Forall₂ Paired)
      (do let s ← Stage.named entry.1
          entry.2.mapM fun name => return (s, ← Catalogue.optionalNamed name))
      (do let s ← Stage.named entry.1
          entry.2.mapM fun name => return (s, ← Catalogue.optionalNamed name)) := by
    intro entry
    refine (Settles.refl (Stage.named entry.1)).bind fun s s' hs => ?_
    refine Settles.mapM (fun name => ?_) entry.2
    exact (Catalogue.optionalNamed_twins name).bind fun p q hp => .ok ⟨hs, hp⟩
  have hresolved : Settles (List.Forall₂ Paired) c.resolvePlugins c.resolvePlugins :=
    (Settles.mapM hnamed c.plugins).bind fun _ _ hall => .ok (List.rel_flatten hall)
  refine hresolved.bind fun entries entries' hentries => .ok ?_
  refine List.rel_foldl (P := TwinRegistries) (R := Paired) ?_ h hentries
  rintro r r' hr ⟨s, p⟩ ⟨s', q⟩ ⟨rfl, hp⟩
  exact hr.registerAt s hp

end

end Bracework
