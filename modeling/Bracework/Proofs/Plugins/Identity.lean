/-
Plugins — which handles are equal.

A handle goes back to one origin, however often it was copied in between: to a call
for a new factory, or to a transform type and the name that it was asked for under.
After any history of calls two handles are equal exactly if they go back to the same
origin.  The invariant is `Faithful`.  It speaks of the handles that are out and says
that the table has the transforms among them and nothing else, so that a call either
repeats a handle that is out or puts a new one where there is none yet.
-/
import Mathlib.Data.Fin.SuccPred
import Bracework.Plugin.Interner

namespace Bracework

variable {m : Type → Type} {n : Nat}

/-! ## Histories -/

namespace Interner

/-- A call for a handle when `n` of them are out. -/
inductive Request (m : Type → Type) (n : Nat) where
  | factory (name : String) (build : PluginContext → m (AstPlugin m))
  | ofType (type : TransformType m)
  | named (type : TransformType m) (name : String)
  | clone (held : Fin n)

/-- What a call gives out, with the interner after it. -/
def serve (i : Interner m) (held : Vector (Handle m) n) : Request m n → Handle m × Interner m
  | .factory name build => i.factory name build
  | .ofType type => i.ofType type
  | .named type name => i.named type name
  | .clone k => (held[k], i)

/-- Calls for handles, the last of them outermost. -/
inductive History (m : Type → Type) : Nat → Type where
  | start : History m 0
  | ask {n : Nat} (before : History m n) (request : Request m n) : History m (n + 1)

/-- The handles that a history gives out, with the interner after it. -/
def History.run (mint : Mint) : {n : Nat} → History m n → Vector (Handle m) n × Interner m
  | _, .start => (#v[], ⟨mint, []⟩)
  | _, .ask before request =>
      let (held, i) := before.run mint
      let (handle, i) := i.serve held request
      (held.push handle, i)

/-- The handles that a history gives out. -/
def History.held (mint : Mint) (h : History m n) : Vector (Handle m) n := (h.run mint).1

/-! ## Origins -/

/-- What a handle goes back to; calls for factories are told apart by the number of
handles that were out before. -/
inductive Origin where
  | factory (call : Nat) (name : String)
  | transform (type name : String)
deriving DecidableEq, Repr

namespace Origin

/-- The name that was asked for. -/
def name : Origin → String
  | .factory _ name => name
  | .transform _ name => name

/-- The convention that was asked for. -/
def kind : Origin → PluginKind
  | .factory .. => .factory
  | .transform .. => .legacy

end Origin

/-- What the handle that a call gives out goes back to. -/
def Request.origin (origins : Vector Origin n) : Request m n → Origin
  | .factory name _ => .factory n name
  | .ofType type => .transform type.key type.defaultName
  | .named type name => .transform type.key name
  | .clone k => origins[k]

/-- What the handles that a history gives out go back to. -/
def History.origins : {n : Nat} → History m n → Vector Origin n
  | _, .start => #v[]
  | _, .ask before request => before.origins.push (request.origin before.origins)

/-! ## The invariant -/

/-- A handle leads to a plugin of an origin. -/
def LeadsTo (h : Handle m) : Origin → Prop
  | .factory _ name => ∃ build, h.plugin = .factory h.address name build
  | .transform type name => ∃ t : TransformType m, t.key = type ∧ h.plugin = .transform t name

/-- The handles that are out and the table agree with the origins. -/
structure Faithful (i : Interner m) (held : Vector (Handle m) n) (origins : Vector Origin n) :
    Prop where
  leads : ∀ k : Fin n, LeadsTo held[k] origins[k]
  address_iff : ∀ j k : Fin n, held[j].address = held[k].address ↔ origins[j] = origins[k]
  taken : ∀ k : Fin n, held[k].address < i.mint.next
  counted : ∀ (k : Fin n) call name, origins[k] = .factory call name → call < n
  table : ∀ type name handle, i.transforms.lookup (type, name) = some handle ↔
    ∃ k : Fin n, origins[k] = .transform type name ∧ held[k] = handle

theorem Faithful.start (mint : Mint) :
    Faithful (⟨mint, []⟩ : Interner m) #v[] #v[] where
  leads := nofun
  address_iff := nofun
  taken := nofun
  counted := nofun
  table type name handle := by
    constructor
    · intro hfound
      cases hfound
    · rintro ⟨k, _⟩
      exact k.elim0

/-! ## One call -/

section Push

variable {α : Type}

theorem getElem_push_castSucc (v : Vector α n) (x : α) (k : Fin n) :
    (v.push x)[k.castSucc] = v[k] :=
  Vector.getElem_push_lt k.isLt

theorem getElem_push_last (v : Vector α n) (x : α) : (v.push x)[Fin.last n] = x :=
  Vector.getElem_push_last

/-- Where an entry stands when the last one repeats an earlier one. -/
def earlier (k : Fin n) (j : Fin (n + 1)) : Fin n := if h : j.val < n then ⟨j, h⟩ else k

theorem getElem_push_again (v : Vector α n) (k : Fin n) (j : Fin (n + 1)) :
    (v.push v[k])[j] = v[earlier k j] := by
  simp only [Fin.getElem_fin, Vector.getElem_push, earlier]
  split <;> rfl

end Push

variable {i : Interner m} {held : Vector (Handle m) n} {origins : Vector Origin n}

/-- A handle may be given out again. -/
theorem Faithful.again (hok : Faithful i held origins) (k : Fin n) :
    Faithful i (held.push held[k]) (origins.push origins[k]) where
  leads j := by
    rw [getElem_push_again, getElem_push_again]
    exact hok.leads (earlier k j)
  address_iff j j' := by
    simp only [getElem_push_again]
    exact hok.address_iff (earlier k j) (earlier k j')
  taken j := by
    rw [getElem_push_again]
    exact hok.taken (earlier k j)
  counted j call name hsame := by
    rw [getElem_push_again] at hsame
    exact Nat.lt_succ_of_lt (hok.counted (earlier k j) call name hsame)
  table type name handle := by
    rw [hok.table]
    constructor
    · rintro ⟨j, horigin, hsame⟩
      refine ⟨j.castSucc, ?_, ?_⟩
      · rw [getElem_push_castSucc, horigin]
      · rw [getElem_push_castSucc, hsame]
    · rintro ⟨j, horigin, hsame⟩
      rw [getElem_push_again] at horigin hsame
      exact ⟨earlier k j, horigin, hsame⟩

/-- A handle for an origin that none goes back to is given an address of its own. -/
theorem Faithful.fresh (hok : Faithful i held origins) {i' : Interner m} {h : Handle m}
    {o : Origin} (haddress : h.address = i.mint.next) (hnext : i'.mint.next = i.mint.next + 1)
    (hleads : LeadsTo h o) (hnew : ∀ k : Fin n, origins[k] ≠ o)
    (hcounted : ∀ call name, o = .factory call name → call < n + 1)
    (htable : ∀ type name handle, i'.transforms.lookup (type, name) = some handle ↔
      i.transforms.lookup (type, name) = some handle ∨ o = .transform type name ∧ h = handle) :
    Faithful i' (held.push h) (origins.push o) where
  leads := by
    rw [Fin.forall_fin_succ']
    simp only [getElem_push_castSucc, getElem_push_last]
    exact ⟨hok.leads, hleads⟩
  address_iff := by
    have hapart (k : Fin n) : held[k].address ≠ h.address := by
      rw [haddress]
      exact Nat.ne_of_lt (hok.taken k)
    simp only [Fin.forall_fin_succ', getElem_push_castSucc, getElem_push_last]
    refine ⟨fun j => ⟨hok.address_iff j, iff_of_false (hapart j) (hnew j)⟩, fun k => ?_, ?_⟩
    · exact iff_of_false (hapart k).symm (hnew k).symm
    · trivial
  taken := by
    simp only [Fin.forall_fin_succ', getElem_push_castSucc, getElem_push_last]
    refine ⟨fun k => ?_, ?_⟩
    · have htaken := hok.taken k
      omega
    · omega
  counted := by
    simp only [Fin.forall_fin_succ', getElem_push_castSucc, getElem_push_last]
    refine ⟨fun k call name hsame => ?_, hcounted⟩
    exact Nat.lt_succ_of_lt (hok.counted k call name hsame)
  table type name handle := by
    simp only [Fin.exists_fin_succ', getElem_push_castSucc, getElem_push_last]
    rw [htable, hok.table]

theorem Faithful.factory (hok : Faithful i held origins) (name : String)
    (build : PluginContext → m (AstPlugin m)) :
    Faithful (i.factory name build).2 (held.push (i.factory name build).1)
      (origins.push (.factory n name)) := by
  refine hok.fresh rfl rfl ⟨build, rfl⟩ ?_ ?_ ?_
  · intro k hsame
    exact absurd (hok.counted k n name hsame) (Nat.lt_irrefl n)
  · intro call name' hsame
    cases hsame
    exact Nat.lt_succ_self n
  · intro type name' handle
    simp [Interner.factory]

theorem Faithful.named (hok : Faithful i held origins) (type : TransformType m) (name : String) :
    Faithful (i.named type name).2 (held.push (i.named type name).1)
      (origins.push (.transform type.key name)) := by
  rw [Interner.named]
  split
  next handle hfound =>
    -- the table leads to a handle that is out
    obtain ⟨k, horigin, hsame⟩ := (hok.table type.key name handle).mp hfound
    rw [← horigin, ← hsame]
    exact hok.again k
  next hmissing =>
    refine hok.fresh rfl rfl ⟨type, rfl, rfl⟩ ?_ nofun ?_
    · intro k horigin
      have hfound := (hok.table type.key name held[k]).mpr ⟨k, horigin, rfl⟩
      rw [hmissing] at hfound
      cases hfound
    · intro type' name' handle
      by_cases hsame : (type', name') = (type.key, name)
      · obtain ⟨rfl, rfl⟩ := Prod.mk.inj hsame
        simp [hmissing]
      · have hother : Origin.transform type.key name ≠ .transform type' name' := by
          intro e
          obtain ⟨rfl, rfl⟩ := Origin.transform.inj e
          exact hsame rfl
        simp [List.lookup_cons, beq_eq_false_iff_ne.mpr hsame, hother]

theorem Faithful.serve (hok : Faithful i held origins) (request : Request m n) :
    Faithful (i.serve held request).2 (held.push (i.serve held request).1)
      (origins.push (request.origin origins)) := by
  cases request with
  | factory name build => exact hok.factory name build
  | ofType type => exact hok.named type type.defaultName
  | named type name => exact hok.named type name
  | clone k => exact hok.again k

/-! ## Whole histories -/

theorem History.faithful (mint : Mint) (h : History m n) :
    Faithful (h.run mint).2 (h.held mint) h.origins := by
  induction h with
  | start => exact .start mint
  | ask before request ih => exact ih.serve request

theorem LeadsTo.name_kind {h : Handle m} {o : Origin} (hleads : LeadsTo h o) :
    h.plugin.name = o.name ∧ h.plugin.kind = o.kind := by
  cases o with
  | factory call name =>
    obtain ⟨build, hplugin⟩ := hleads
    rw [hplugin]
    exact ⟨rfl, rfl⟩
  | transform type name =>
    obtain ⟨t, _, hplugin⟩ := hleads
    rw [hplugin]
    exact ⟨rfl, rfl⟩

/-- References are told apart as the handles are that lead to them. -/
theorem Faithful.identity_iff (hok : Faithful i held origins) (j k : Fin n) :
    held[j].plugin.identity = held[k].plugin.identity ↔ origins[j] = origins[k] := by
  have hagree := hok.address_iff j k
  have hleft := hok.leads j
  have hright := hok.leads k
  cases hp : origins[j] with
  | factory call name =>
    rw [hp] at hleft hagree
    obtain ⟨build, hmade⟩ := hleft
    cases hq : origins[k] with
    | factory call' name' =>
      rw [hq] at hright hagree
      obtain ⟨build', hmade'⟩ := hright
      rw [hmade, hmade', ← hagree]
      simp [PluginRef.identity]
    | transform type name' =>
      rw [hq] at hright
      obtain ⟨t, _, hmade'⟩ := hright
      rw [hmade, hmade']
      exact iff_of_false nofun nofun
  | transform type name =>
    rw [hp] at hleft hagree
    obtain ⟨t, rfl, hmade⟩ := hleft
    cases hq : origins[k] with
    | factory call name' =>
      rw [hq] at hright
      obtain ⟨build, hmade'⟩ := hright
      rw [hmade, hmade']
      exact iff_of_false nofun nofun
    | transform type' name' =>
      rw [hq] at hright
      obtain ⟨t', rfl, hmade'⟩ := hright
      rw [hmade, hmade']
      simp [PluginRef.identity]

/-- Two handles are equal, and so are the references that they lead to, exactly if they are
copies from one call for a factory or belong to the same transform type under the same name.
Each has the name and is of the kind that was asked for. -/
theorem History.held_beq_iff (mint : Mint) (h : History m n) (j k : Fin n) :
    let held := h.held mint
    ((held[j] == held[k]) = true ↔ h.origins[j] = h.origins[k]) ∧
      ((held[j].plugin == held[k].plugin) = true ↔ h.origins[j] = h.origins[k]) ∧
      (h.origins[j].kind ≠ h.origins[k].kind → (held[j] == held[k]) = false) ∧
      held[k].plugin.name = h.origins[k].name ∧ held[k].plugin.kind = h.origins[k].kind := by
  intro held
  have hok := h.faithful mint
  have hequal : (held[j] == held[k]) = true ↔ h.origins[j] = h.origins[k] :=
    Handle.beq_eq_true_iff.trans (hok.address_iff j k)
  refine ⟨hequal, PluginRef.beq_eq_true_iff.trans (hok.identity_iff j k), ?_,
    (hok.leads k).name_kind⟩
  intro hkinds
  rw [Bool.eq_false_iff, ne_eq, hequal]
  intro hsame
  exact hkinds (congrArg Origin.kind hsame)

/-- Two factories and a transform, all of one name, and a copy of the first factory. -/
def namesakes : History Id 5 :=
  let build : PluginContext → Id (AstPlugin Id) := fun _ => pure ⟨"x", {}⟩
  let type : TransformType Id := ⟨"Type", "x", fun _ t => pure t⟩
  .ask (.ask (.ask (.ask (.ask .start (.factory "x" build)) (.named type "x")) (.clone 0))
    (.ofType type)) (.factory "x" build)

theorem held_beq_iff_namesakes :
    let held := namesakes.held ⟨0⟩
    (held[0] == held[2]) = true ∧ (held[1] == held[3]) = true ∧ (held[0] == held[1]) = false ∧
      (held[0] == held[4]) = false ∧ held[4].plugin.name = "x" := by
  intro held
  have hdiffer (j k : Fin 5) (h : namesakes.origins[j] ≠ namesakes.origins[k]) :
      (held[j] == held[k]) = false :=
    Bool.eq_false_iff.mpr fun e => h ((namesakes.held_beq_iff ⟨0⟩ j k).1.mp e)
  refine ⟨(namesakes.held_beq_iff ⟨0⟩ 0 2).1.mpr rfl, (namesakes.held_beq_iff ⟨0⟩ 1 3).1.mpr rfl,
    ?_, hdiffer 0 4 (by decide), (namesakes.held_beq_iff ⟨0⟩ 0 4).2.2.2.1⟩
  exact (namesakes.held_beq_iff ⟨0⟩ 0 1).2.2.1 (by decide)

end Interner

end Bracework
