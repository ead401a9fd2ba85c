/-
Wire programs — exactly when there is none.

A call site is a part of a tree that can only be lowered to a call: a block
statement, a modifier, a call in parentheses, and a mustache with arguments wherever
it stands.  `Template.callSites` has all of them, at any depth.
Lowering asks one thing of a call site, that its callee is a path, and asks nothing
of any other part, so the sites with another callee are the only reason to fail.
-/
import Bracework.Proofs.Wire.Callees

namespace Bracework

/-! ## Call sites -/

/-- The calls that are made at a node.  A modifier is called with arguments or without, and one with
arguments is met once more as a mustache; any other mustache without arguments shows its callee and
calls nothing. -/
def Kind.calls : (k : Kind) → k.Node → List Call
  | .template, _ => []
  | .block, _ => []
  | .element, e => e.modifiers.map (·.call)
  | .attr, _ => []
  | .text, _ => []
  | .mustache, m => if m.call.isBare then [] else [m.call]
  | .blockStatement, b => [b.call]
  | .comment, _ => []
  | .path, _ => []
  | .subExpression, s => [s.call]

/-- The calls that are made at a node. -/
def Node.calls (n : Node) : List Call := n.kind.calls n.value

/-- The calls that are made at some nodes. -/
def callsAmong (nodes : List Node) : List Call := nodes.flatMap Node.calls

/-- The calls of a template, at any depth. -/
def Template.callSites (t : Template) : List Call := callsAmong t.nodes

/-! ## Callees -/

theorem Call.isCallable_iff {c : Call} : c.isCallable = true ↔ ∃ p, c.callee = .path p := by
  obtain ⟨callee, params, hash⟩ := c
  cases callee with
  | path p => exact ⟨fun _ => ⟨p, rfl⟩, fun _ => rfl⟩
  | literal l => exact ⟨fun h => (nomatch h), fun ⟨_, h⟩ => (nomatch h)⟩
  | sub inner span => exact ⟨fun h => (nomatch h), fun ⟨_, h⟩ => (nomatch h)⟩

/-- What a node calls can be called if every call made there can. -/
theorem Node.isCallable_iff (n : Node) :
    n.isCallable = true ↔ ∀ c ∈ n.calls, ∃ p, c.callee = .path p := by
  obtain ⟨kind, value⟩ := n
  cases kind with
  | template | block | attr | text | comment | path =>
      exact ⟨fun _ => List.forall_mem_nil _, fun _ => rfl⟩
  | blockStatement | subExpression =>
      rw [isCallable, Kind.isCallable, calls, Kind.calls, List.forall_mem_singleton]
      exact Call.isCallable_iff
  | element =>
      rw [isCallable, Kind.isCallable, calls, Kind.calls, List.all_eq_true, List.forall_mem_map]
      exact forall₂_congr fun _ _ => Call.isCallable_iff
  | mustache =>
      rw [isCallable, Kind.isCallable, calls, Kind.calls, Bool.or_eq_true]
      split
      case isTrue h => exact ⟨fun _ => List.forall_mem_nil _, fun _ => .inl h⟩
      case isFalse h =>
        rw [List.forall_mem_singleton, ← Call.isCallable_iff]
        exact or_iff_right h

theorem everywhere_isCallable_iff {nodes : List Node} :
    Everywhere Node.isCallable nodes ↔ ∀ c ∈ callsAmong nodes, ∃ p, c.callee = .path p := by
  rw [callsAmong, List.forall_mem_flatMap]
  exact forall₂_congr fun n _ => n.isCallable_iff

/-! ## Templates -/

/-- Of a template no program can be made exactly if it has a call site whose callee is no path, and
there is no other reason; a mustache that is nothing but a literal is shown as it is. -/
theorem Template.compiled_fails_iff {m : Type → Type} (t : Template) (o : ResolvedOptions m) :
    ((∃ fault, t.compiled o = .error fault) ↔ ∃ c ∈ t.callSites, ∀ p, c.callee ≠ .path p) ∧
    ((∃ program, t.compiled o = .ok program) ∨ t.compiled o = .error .calleeNoPath) ∧
    ∀ l trusting span symbols,
      (Lowering.mustache ⟨⟨.literal l, [], []⟩, trusting, span⟩).run symbols =
        .ok (Lowering.literal l, symbols) := by
  have hsites : ¬ Everywhere Node.isCallable t.nodes ↔
      ∃ c ∈ t.callSites, ∀ p, c.callee ≠ .path p := by
    simp only [everywhere_isCallable_iff, Template.callSites, not_forall, not_exists, exists_prop]
  by_cases hall : Everywhere Node.isCallable t.nodes
  case pos =>
    obtain ⟨program, hprogram⟩ := exists_compiled hall o
    refine ⟨⟨?_, fun h => absurd hall (hsites.mpr h)⟩, .inl ⟨program, hprogram⟩, fun _ _ _ _ => rfl⟩
    rintro ⟨fault, herror⟩
    rw [hprogram] at herror
    cases herror
  case neg =>
    have herror := compiled_eq_error hall o
    exact ⟨⟨fun _ => hsites.mp hall, fun _ => ⟨_, herror⟩⟩, .inr herror, fun _ _ _ _ => rfl⟩

end Bracework
