/-
Plugins — the plugins that only look at a tree.

Three of the plugins that come with the compiler change nothing.  Each says of a
node what is wrong with it, looking at nothing but the node, and goes through the
nodes in document order.  So what such a plugin comes to can be said without a
walk: it gives back the very tree that it was given if no node is complained of,
and otherwise it fails with the first complaint.
-/
import Bracework.Plugin.Application
import Bracework.Plugin.Assertions
import Bracework.Proofs.Traversal.Entering

namespace Bracework

/-! ## The assertions -/

/-- The plugins that only look. -/
inductive Assertion where
  | reservedArguments
  | conditionalArguments
  | debuggerArguments
deriving DecidableEq, Repr

def Assertion.plugin {m : Type → Type} [Monad m] : Assertion → PluginRef m
  | .reservedArguments => Bracework.reservedArguments
  | .conditionalArguments => assertConditionalArguments
  | .debuggerArguments => Bracework.debuggerArguments

/-- What is wrong with a node. -/
def Assertion.complaint? : Assertion → Node → Option Complaint
  | .reservedArguments, ⟨.path, p⟩ => p.complaint?
  | .reservedArguments, _ => none
  | .conditionalArguments, ⟨k, n⟩ => k.conditionalComplaint? n
  | .debuggerArguments, ⟨.mustache, n⟩ => n.debuggerComplaint?
  | .debuggerArguments, _ => none

/-- The first complaint about a tree, in document order. -/
def Template.complaint? (t : Template) (a : Assertion) : Option Complaint :=
  t.nodes.findSome? a.complaint?

/-- What an assertion gives back: the tree, or the wording of the first complaint. -/
def Template.asserted (c : PluginContext) (a : Assertion) (t : Template) : Except String Template :=
  match t.complaint? a with
  | none => .ok t
  | some complaint => .error (located complaint.message c.moduleName complaint.span)

theorem Template.complaint?_eq_none_iff {t : Template} {a : Assertion} :
    t.complaint? a = none ↔ ∀ n ∈ t.nodes, a.complaint? n = none :=
  List.findSome?_eq_none_iff

/-! ## Each plugin makes its assertion -/

section
variable {m : Type → Type} [Monad m] [LawfulMonad m] (c : PluginContext)

theorem reservedArguments_enter (k : Kind) (n : k.Node) :
    (Visitor.handle {} .path fun p => do
      raise c p.complaint?
      return p : Visitor (Effect m)).enter k n = (do
        raise c (Assertion.reservedArguments.complaint? ⟨k, n⟩)
        return n) := by
  cases k <;> simp [Visitor.handle, Visitor.enter, Assertion.complaint?, raise]

omit [LawfulMonad m] in
theorem conditionalArguments_enter (k : Kind) (n : k.Node) :
    ({ any := some fun k n => do
        raise c (k.conditionalComplaint? n)
        return n } : Visitor (Effect m)).enter k n = (do
          raise c (Assertion.conditionalArguments.complaint? ⟨k, n⟩)
          return n) := rfl

theorem debuggerArguments_enter (k : Kind) (n : k.Node) :
    (Visitor.handle {} .mustache fun n => do
      raise c n.debuggerComplaint?
      return n : Visitor (Effect m)).enter k n = (do
        raise c (Assertion.debuggerArguments.complaint? ⟨k, n⟩)
        return n) := by
  cases k <;> simp [Visitor.handle, Visitor.enter, Assertion.complaint?, raise]

/-- Nothing happens after a complaint. -/
theorem raise_some_bind {α : Type} (complaint : Complaint) (f : Unit → Effect m α) :
    raise c (some complaint) >>= f =
      throw (located complaint.message c.moduleName complaint.span) := by
  apply ExceptT.ext
  simp only [raise, ExceptT.run_bind, ExceptT.run_throw, pure_bind]

/-- A loop that complains stops at the first complaint. -/
theorem forM_raise {α : Type} (complaint? : α → Option Complaint) (as : List α) :
    (forM as fun a => raise c (complaint? a) : Effect m Unit) =
      raise c (as.findSome? complaint?) := by
  induction as with
  | nil => rfl
  | cons a as ih =>
      rw [List.forM_cons, ih, List.findSome?_cons]
      cases complaint? a with
      | none => exact pure_bind () _
      | some complaint => exact raise_some_bind c complaint _

/-- A visitor that complains of nodes and changes none comes to what the assertion says. -/
theorem run_traverse_of_enter {v : Visitor (Effect m)} {a : Assertion}
    (h : ∀ (k : Kind) (n : k.Node),
      v.enter k n = (do raise c (a.complaint? ⟨k, n⟩); return n)) (t : Template) :
    (v.traverse t).run = pure (t.asserted c a) := by
  have hwalk : v.traverse t = (do forM t.nodes fun n => raise c (a.complaint? n); return t) :=
    Visitor.traverse_of_enter h t
  rw [hwalk, forM_raise, Template.asserted, Template.complaint?]
  cases t.nodes.findSome? a.complaint? with
  | none => exact congrArg ExceptT.run (pure_bind () fun _ => (pure t : Effect m Template))
  | some complaint => exact congrArg ExceptT.run (raise_some_bind c complaint _)

/-- An assertion fails with its first complaint, and it never changes a tree. -/
theorem Assertion.work_plugin (a : Assertion) (t : Template) :
    a.plugin.work c t = (pure ((a.plugin (m := m)).name, t.asserted c a) : m _) := by
  cases a with
  | reservedArguments =>
      have h := run_traverse_of_enter (m := m) c (reservedArguments_enter c) t
      simp only [plugin, Bracework.reservedArguments, PluginRef.work, pure_bind, h, PluginRef.name]
  | conditionalArguments =>
      have h := run_traverse_of_enter (m := m) c (conditionalArguments_enter c) t
      simp only [plugin, assertConditionalArguments, Bracework.conditionalArguments,
        PluginRef.work, pure_bind, Template.visit, h, PluginRef.name]
  | debuggerArguments =>
      have h := run_traverse_of_enter (m := m) c (debuggerArguments_enter c) t
      simp only [plugin, Bracework.debuggerArguments, PluginRef.work, pure_bind, h, PluginRef.name]

theorem Assertion.applyOnce_plugin (a : Assertion) (t : Template) :
    a.plugin.applyOnce c t =
      (.mk (pure (PluginRef.judge (a.plugin (m := m)).name (t.asserted c a))) :
        ExceptT PluginError m Template) := by
  rw [PluginRef.applyOnce, a.work_plugin, pure_bind]

end

end Bracework
