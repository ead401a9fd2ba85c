/-
Traversal — which handlers are called, with which nodes, and up to where.

A visitor here only looks on: it has a handler for some kinds and maybe a fallback,
and each handler notes down that it was called and with which node, until one call
fails.  What is noted is told by the list of nodes alone.  Every node is noted once, by
the handler for its kind or else by the fallback; the notes are in document order; and
they end with the call that fails, whose error is the error of the traversal.
-/
import Bracework.Proofs.Schedule.Driver
import Bracework.Proofs.Traversal.Entering

namespace Bracework

/-! ## Visitors that look on -/

/-- A call of a handler: whether the handler is one for the kind of the node or the fallback, and
the node. -/
structure HandlerCall where
  dedicated : Bool
  node : Node

/-- What can fail, but keeps its notes. -/
abbrev Noting : Type → Type := Effect (StateM (List HandlerCall))

/-- Notes down a call, and fails if it is the one with a number, counted from 1. -/
def note (failing : Nat) (message : String) (call : HandlerCall) : Noting Unit := do
  let seen ← get
  set (seen ++ [call])
  if seen.length + 1 = failing then throw message

/-- The handler that notes down its calls and leaves the nodes alone. -/
def noteNode (failing : Nat) (message : String) (dedicated : Bool) (k : Kind) (n : k.Node) :
    Noting k.Node := do
  note failing message ⟨dedicated, ⟨k, n⟩⟩
  return n

/-- The visitor with such handlers for some kinds, and maybe one for the kinds without. -/
def Visitor.noting (kinds : List Kind) (fallback : Bool) (failing : Nat) (message : String) :
    Visitor Noting :=
  let handled := kinds.foldl (fun v k => v.handle k (noteNode failing message true k)) {}
  if fallback then handled.otherwise (noteNode failing message false) else handled

/-- The call that a node leads to, if any. -/
def Node.handlerCall? (kinds : List Kind) (fallback : Bool) (n : Node) : Option HandlerCall :=
  if n.kind ∈ kinds then some ⟨true, n⟩ else if fallback then some ⟨false, n⟩ else none

/-- The calls that the nodes of a template lead to, in document order. -/
def Template.handlerCalls (kinds : List Kind) (fallback : Bool) (t : Template) : List HandlerCall :=
  t.nodes.filterMap (Node.handlerCall? kinds fallback)

/-! ## What such a visitor does at a node -/

namespace Visitor

section
variable {m : Type → Type} (h : (k : Kind) → k.Node → m k.Node)

theorem on_handle (v : Visitor m) (k k' : Kind) :
    (v.handle k (h k)).on k' = if k = k' then some (h k') else v.on k' := by
  simp only [handle]
  split
  case isTrue hk =>
    subst hk
    rfl
  case isFalse => rfl

/-- Handlers are added kind by kind, and it does not matter in which order. -/
theorem on_foldl_handle (kinds : List Kind) (v : Visitor m) (k : Kind) :
    (kinds.foldl (fun v k => v.handle k (h k)) v).on k =
      if k ∈ kinds then some (h k) else v.on k := by
  induction kinds generalizing v with
  | nil => rfl
  | cons k' kinds ih =>
      rw [List.foldl_cons, ih, on_handle]
      by_cases hk : k ∈ kinds
      · rw [if_pos hk, if_pos (List.mem_cons_of_mem _ hk)]
      · by_cases hk' : k' = k
        · rw [if_neg hk, if_pos hk', if_pos (List.mem_cons.mpr (.inl hk'.symm))]
        · rw [if_neg hk, if_neg hk', if_neg (List.not_mem_cons_of_ne_of_not_mem (Ne.symm hk') hk)]

theorem any_foldl_handle (kinds : List Kind) (v : Visitor m) :
    (kinds.foldl (fun v k => v.handle k (h k)) v).any = v.any := by
  induction kinds generalizing v with
  | nil => rfl
  | cons k kinds ih => exact ih _

end

/-- At a node such a visitor notes down the call that the node leads to. -/
theorem enter_noting (kinds : List Kind) (fallback : Bool) (failing : Nat) (message : String)
    (k : Kind) (n : k.Node) :
    (noting kinds fallback failing message).enter k n = (do
      forM (Node.handlerCall? kinds fallback ⟨k, n⟩).toList (note failing message)
      return n) := by
  have hon : (noting kinds fallback failing message).on k =
      if k ∈ kinds then some (noteNode failing message true k) else none := by
    have h := on_foldl_handle (noteNode failing message true) kinds {} k
    cases fallback <;> exact h
  have hany : (noting kinds fallback failing message).any =
      if fallback then some (noteNode failing message false) else none := by
    cases fallback with
    | true => rfl
    | false => exact any_foldl_handle (noteNode failing message true) kinds {}
  rw [enter, hon, hany, Node.handlerCall?]
  by_cases hk : k ∈ kinds
  · simp [hk, noteNode]
  · cases fallback <;> simp [hk, noteNode]

end Visitor

/-! ## Calls one after the other -/

theorem forM_toList_filterMap {m : Type → Type} [Monad m] [LawfulMonad m] {α β : Type}
    (f : α → Option β) (act : β → m Unit) (as : List α) :
    (forM as fun a => forM (f a).toList act) = forM (as.filterMap f) act := by
  induction as with
  | nil => rfl
  | cons a as ih =>
      rw [List.forM_cons, ih]
      cases h : f a with
      | none =>
          rw [List.filterMap_cons_none h]
          exact pure_bind () _
      | some b => simp [List.filterMap_cons_some h]

/-- A call is noted before it fails, if it does. -/
theorem run_note (failing : Nat) (message : String) (call : HandlerCall)
    (seen : List HandlerCall) :
    (note failing message call).run.run seen =
      (if seen.length + 1 = failing then .error message else .ok (), seen ++ [call]) := by
  show (if seen.length + 1 = failing then throw message else pure () : Noting Unit).run.run
    (seen ++ [call]) = _
  split <;> rfl

/-- Calls are noted up to the one that fails.  The induction is on the calls that are still to come,
whatever was noted before them. -/
theorem run_forM_note {failing : Nat} {message : String} {calls seen : List HandlerCall}
    (h : seen.length < failing) :
    (forM calls (note failing message)).run.run seen =
      (if failing ≤ seen.length + calls.length then .error message else .ok (),
        (seen ++ calls).take failing) := by
  induction calls generalizing seen with
  | nil =>
      have hlate : ¬ failing ≤ seen.length := by omega
      rw [List.length_nil, Nat.add_zero, if_neg hlate, List.append_nil,
        List.take_of_length_le (by omega)]
      rfl
  | cons call calls ih =>
      have hnote := run_note failing message call seen
      have hnoted : (seen ++ [call]).length = seen.length + 1 := List.length_append
      rw [List.forM_cons, List.append_cons seen call calls, List.length_cons]
      by_cases hlast : seen.length + 1 = failing
      · rw [if_pos hlast] at hnote
        rw [run_bind_of_error hnote, if_pos (by omega), List.take_left' (by omega)]
      · rw [if_neg hlast] at hnote
        rw [run_bind_of_ok hnote, ih (by omega), hnoted, Nat.add_assoc, Nat.add_comm 1]

/-- A traversal calls the handlers with the nodes of a template in document order, each node once,
with the handler for its kind or else with the fallback.  It stops at the first call that fails: if
that is the call with the number `n`, then the calls are the first `n`, or all if there are fewer,
and the traversal fails exactly if there are that many. -/
theorem Template.traverse_noting {n : Nat} (hn : 0 < n) (t : Template) (kinds : List Kind)
    (fallback : Bool) (message : String) :
    ((Visitor.noting kinds fallback n message).traverse t).run.run [] =
      (if n ≤ (t.handlerCalls kinds fallback).length then .error message else .ok t,
        (t.handlerCalls kinds fallback).take n) := by
  have hwalk : (Visitor.noting kinds fallback n message).traverse t = (do
      forM t.nodes fun node => forM (node.handlerCall? kinds fallback).toList (note n message)
      return t) :=
    Visitor.traverse_of_enter (Visitor.enter_noting kinds fallback n message) t
  have hrun : (forM (t.handlerCalls kinds fallback) (note n message)).run.run [] = _ :=
    run_forM_note hn
  rw [List.length_nil, Nat.zero_add, List.nil_append] at hrun
  rw [hwalk, forM_toList_filterMap, ← handlerCalls]
  by_cases hfails : n ≤ (t.handlerCalls kinds fallback).length
  · rw [if_pos hfails] at hrun ⊢
    exact run_bind_of_error hrun _
  · rw [if_neg hfails] at hrun ⊢
    exact run_bind_of_ok hrun _

/-- A template with an attribute value in pieces, a modifier, a call in parentheses and an
inverse. -/
def Template.nested : Template where
  body := [
    .element ⟨"a",
      [⟨"href", .concat [.text ⟨"x", .none⟩, .mustache { call := ⟨.path ⟨"f", .none⟩,
        [.sub ⟨.path ⟨"g", .none⟩, [.path ⟨"y", .none⟩], []⟩ .none],
        [("k", .path ⟨"z", .none⟩)]⟩ }], .none⟩],
      [{ call := ⟨.path ⟨"on", .none⟩, [], []⟩ }],
      [.block ⟨⟨.path ⟨"if", .none⟩, [.path ⟨"c", .none⟩], []⟩, ⟨[.text ⟨"t", .none⟩], []⟩,
        some ⟨[.text ⟨"u", .none⟩], []⟩, .none⟩], false, .none⟩]

theorem Template.traverse_noting_nested :
    0 < 8 ∧
    ∃ seen, ((Visitor.noting [.path, .block] true 8 "stop").traverse nested).run.run [] =
        (.error "stop", seen) ∧
      seen.map (fun ⟨dedicated, node⟩ => (dedicated, node.kind, node.kind.label node.value)) =
        [(false, .template, ""), (false, .element, "a"), (false, .attr, "href"),
          (false, .text, "x"), (false, .mustache, "f"), (true, .path, "f"),
          (false, .subExpression, "g"), (true, .path, "g")] := by
  have h := traverse_noting (n := 8) (by decide) nested [.path, .block] true "stop"
  have hmany : 8 ≤ (nested.handlerCalls [.path, .block] true).length := by decide
  rw [if_pos hmany] at h
  exact ⟨by decide, _, h, by decide⟩

end Bracework
