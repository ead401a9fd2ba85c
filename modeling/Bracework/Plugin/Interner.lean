/-
Plugins — how references are made.

Whoever asks for a plugin is given a handle: an address and the reference that is
found there.  Handles are equal when their addresses are.  Every factory is put at
an address of its own.  A transform is put at one when its type is asked for under
its name the first time; a table then leads all later askers there.
-/
import Bracework.Plugin.Reference

namespace Bracework

variable {m : Type → Type}

/-- A reference to a plugin and the address where it is kept. -/
structure Handle (m : Type → Type) where
  address : Nat
  plugin : PluginRef m

namespace Handle

instance : BEq (Handle m) := ⟨fun h h' => h.address == h'.address⟩

theorem beq_eq_true_iff {h h' : Handle m} : (h == h') = true ↔ h.address = h'.address := by
  show (h.address == h'.address) = true ↔ _
  exact beq_iff_eq

end Handle

/-- The source of handles; the table has the transforms by the key of their type and
the name they go by. -/
structure Interner (m : Type → Type) where
  mint : Mint
  transforms : List ((String × String) × Handle m) := []

namespace Interner

/-- A new factory. -/
def factory (i : Interner m) (name : String) (build : PluginContext → m (AstPlugin m)) :
    Handle m × Interner m :=
  let (plugin, mint) := i.mint.factory name build
  (⟨i.mint.next, plugin⟩, { i with mint })

/-- The transform of a type under a name. -/
def named (i : Interner m) (type : TransformType m) (name : String) : Handle m × Interner m :=
  match i.transforms.lookup (type.key, name) with
  | some handle => (handle, i)
  | none =>
      let handle := ⟨i.mint.next, .transform type name⟩
      (handle, ⟨⟨i.mint.next + 1⟩, ((type.key, name), handle) :: i.transforms⟩)

/-- The transform of a type under the type's own name. -/
def ofType (i : Interner m) (type : TransformType m) : Handle m × Interner m :=
  i.named type type.defaultName

end Interner

end Bracework
