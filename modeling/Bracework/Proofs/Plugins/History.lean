/-
Plugins — what a registry holds after any history of calls.

A registry is changed by three calls, each on one list.  What a list holds can be
read off the calls alone: a plugin is there if the last call that concerned it was
a registration, and the plugins stand in the order in which they were added last.
`get_next` says once what a call does to a list; the rest are inductions on the
history, one call at its end at a time.
-/
import Mathlib.Data.List.Basic
import Mathlib.Data.List.Induction
import Bracework.Plugin.Registry

namespace Bracework

variable {m : Type → Type}

namespace PluginRef

@[simp] theorem beq_self (p : PluginRef m) : (p == p) = true := beq_eq_true_iff.mpr rfl

theorem beq_comm (p q : PluginRef m) : (p == q) = (q == p) := by
  rw [Bool.eq_iff_iff, beq_eq_true_iff, beq_eq_true_iff]
  exact eq_comm

theorem beq_congr_left {p q r : PluginRef m} (h : (p == q) = true) : (p == r) = (q == r) := by
  rw [Bool.eq_iff_iff, beq_eq_true_iff, beq_eq_true_iff, beq_eq_true_iff.mp h]

theorem contains_congr {p q : PluginRef m} {plugins : List (PluginRef m)} (h : (p == q) = true) :
    plugins.contains p = plugins.contains q := by
  simp only [List.contains_eq_any_beq, beq_congr_left h]

/-- A property of references that respects equality filters them like any others. -/
theorem contains_filter {p : PluginRef m} (plugins : List (PluginRef m)) (f : PluginRef m → Bool)
    (hrespects : ∀ q, (p == q) = true → f p = f q) :
    (plugins.filter f).contains p = (plugins.contains p && f p) := by
  induction plugins with
  | nil => rfl
  | cons q rest ih =>
    cases hsame : p == q with
    | false => cases hkeep : f q <;> simp [hkeep, hsame, ih]
    | true =>
      have hkeep := hrespects q hsame
      cases hkept : f q <;> simp [hkeep, hkept, hsame, ih]

end PluginRef

theorem PerStage.get_empty {α : Type} (s : Stage) : ({} : PerStage α).get s = [] := by
  cases s
  rfl

namespace Stage

@[simp] theorem named_name (s : Stage) : named s.name = .ok s := by
  rw [named, ofName?_eq_some_iff.mpr rfl]

/-- A text is the name of a stage, or no stage has that name. -/
theorem eq_name_or_unknown (text : String) :
    (∃ s : Stage, text = s.name) ∨ ∀ s : Stage, text ≠ s.name := by
  rw [← not_exists]
  exact Classical.em _

theorem named_of_unknown {text : String} (hunknown : ∀ s : Stage, text ≠ s.name) :
    named text = .error (.unknownStage text) := by
  have hnone : ofName? text = none := by
    rw [Option.eq_none_iff_forall_ne_some]
    intro s hfound
    exact hunknown s (ofName?_eq_some_iff.mp hfound)
  rw [named, hnone]

theorem name_inj {s s' : Stage} : s.name = s'.name ↔ s = s' := by
  rw [← ofName?_eq_some_iff, ofName?_eq_some_iff.mpr rfl, Option.some.injEq]

end Stage

namespace Registry

/-! ## Histories -/

/-- A call to a registry. -/
inductive Request (m : Type → Type) where
  | register (stage : String) (plugin : PluginRef m)
  | unregister (stage : String) (plugin : PluginRef m)
  | list (stage : String)
  | clear

namespace Request

/-- The name of the stage that a call is about. -/
def stage? : Request m → Option String
  | register stage _ => some stage
  | unregister stage _ => some stage
  | list stage => some stage
  | clear => none

/-- The plugin that a call registers at a stage. -/
def plugin? (s : Stage) : Request m → Option (PluginRef m)
  | register stage p => if stage = s.name then some p else none
  | _ => none

/-- Whether a call registers a plugin at a stage. -/
def registers (s : Stage) (p : PluginRef m) (request : Request m) : Bool :=
  (request.plugin? s).any (p == ·)

/-- Whether a call removes a plugin from a stage. -/
def removes (s : Stage) (p : PluginRef m) : Request m → Bool
  | unregister stage q => stage == s.name && p == q
  | clear => true
  | _ => false

end Request

/-- The registry after a call, or the complaint about it. -/
def serve (r : Registry m) : Request m → Except ConfigError (Registry m)
  | .register stage p => r.register stage p
  | .unregister stage p => r.unregister stage p
  | .list stage => (r.list stage).map fun _ => r
  | .clear => .ok r.clear

/-- The registry after a call; a call that is refused leaves it as it is. -/
def next (r : Registry m) (request : Request m) : Registry m :=
  match r.serve request with
  | .ok r' => r'
  | .error _ => r

/-- The registry after a history of calls. -/
def after (requests : List (Request m)) : Registry m := requests.foldl next .empty

theorem get_after_nil (s : Stage) : (after (m := m) []).get s = [] := PerStage.get_empty s

theorem after_snoc (requests : List (Request m)) (request : Request m) :
    after (requests ++ [request]) = (after requests).next request := by
  rw [after, List.foldl_append]
  rfl

/-! ## One call -/

namespace Request

theorem plugin?_eq_some_iff {s : Stage} {p : PluginRef m} {request : Request m} :
    request.plugin? s = some p ↔ request = .register s.name p := by
  cases request <;> simp [plugin?]

theorem registers_eq_true_iff {s : Stage} {p : PluginRef m} {request : Request m} :
    request.registers s p = true ↔ ∃ q, request = .register s.name q ∧ (p == q) = true := by
  simp [registers, Option.any_eq_true, plugin?_eq_some_iff]

/-- A call that registers a plugin does not remove it as well. -/
theorem removes_eq_false_of_registers {s : Stage} {p : PluginRef m} {request : Request m}
    (h : request.registers s p = true) : request.removes s p = false := by
  obtain ⟨q, rfl, _⟩ := registers_eq_true_iff.mp h
  rfl

theorem removes_congr {s : Stage} {p q : PluginRef m} (request : Request m)
    (h : (p == q) = true) : request.removes s p = request.removes s q := by
  cases request with
  | register stage x => rfl
  | unregister stage x => rw [removes, removes, PluginRef.beq_congr_left h]
  | list stage => rfl
  | clear => rfl

end Request

/-- A call for a stage that does not exist is refused, and it changes nothing. -/
theorem refused_of_unknown (r : Registry m) {request : Request m} {stage : String}
    (hnamed : request.stage? = some stage) (hunknown : ∀ s : Stage, stage ≠ s.name) :
    r.serve request = .error (.unknownStage stage) ∧ r.next request = r := by
  have hrefused : r.serve request = .error (.unknownStage stage) := by
    have hcomplaint := Stage.named_of_unknown hunknown
    cases request <;> cases hnamed <;>
      simp [serve, register, unregister, list, hcomplaint, Except.map]
  exact ⟨hrefused, by rw [next, hrefused]⟩

theorem get_registerAt (r : Registry m) (s s' : Stage) (p : PluginRef m) :
    (r.registerAt s' p).get s = if s = s' then add p (r.get s) else r.get s :=
  PerStage.get_modify r.plugins s' s (add p)

theorem get_unregisterAt (r : Registry m) (s s' : Stage) (p : PluginRef m) :
    (r.unregisterAt s' p).get s = if s = s' then remove p (r.get s) else r.get s :=
  PerStage.get_modify r.plugins s' s (remove p)

theorem add_eq (p : PluginRef m) (plugins : List (PluginRef m)) :
    add p plugins = plugins ++ [p].filter fun q => !plugins.contains q := by
  cases h : plugins.contains p <;> simp [add, h]

/-- What a call does to the list of a stage: it removes, then it adds what is new. -/
theorem get_next (r : Registry m) (request : Request m) (s : Stage) :
    (r.next request).get s =
      (r.get s).filter (fun p => !request.removes s p) ++
        (request.plugin? s).toList.filter (fun p => !(r.get s).contains p) := by
  -- a call for another stage, and a refused one, leaves the list as it is
  have huntouched {request : Request m} (hremoves : ∀ p, request.removes s p = false)
      (hplugin : request.plugin? s = none) : r.get s =
        (r.get s).filter (fun p => !request.removes s p) ++
          (request.plugin? s).toList.filter (fun p => !(r.get s).contains p) := by
    simp [hremoves, hplugin]
  cases request with
  | register stage p =>
    rcases Stage.eq_name_or_unknown stage with ⟨s', rfl⟩ | hunknown
    · have hserved : r.next (.register s'.name p) = r.registerAt s' p := by
        simp [next, serve, register]
      rw [hserved, get_registerAt]
      split
      next hsame => simp [hsame, add_eq, Request.removes, Request.plugin?]
      next hother =>
        exact huntouched (fun q => rfl) (if_neg fun e => hother (Stage.name_inj.mp e).symm)
    · rw [(r.refused_of_unknown rfl hunknown).2]
      exact huntouched (fun q => rfl) (if_neg (hunknown s))
  | unregister stage p =>
    have helsewhere (h : stage ≠ s.name) (q : PluginRef m) :
        (Request.unregister stage p).removes s q = false := by
      simp [Request.removes, h]
    rcases Stage.eq_name_or_unknown stage with ⟨s', rfl⟩ | hunknown
    · have hserved : r.next (.unregister s'.name p) = r.unregisterAt s' p := by
        simp [next, serve, unregister]
      rw [hserved, get_unregisterAt]
      split
      next hsame => simp [hsame, remove, Request.removes, Request.plugin?, bne]
      next hother => exact huntouched (helsewhere fun e => hother (Stage.name_inj.mp e).symm) rfl
    · rw [(r.refused_of_unknown rfl hunknown).2]
      exact huntouched (helsewhere (hunknown s)) rfl
  | list stage =>
    have hserved : r.next (.list stage) = r := by
      rcases Stage.eq_name_or_unknown stage with ⟨s', rfl⟩ | hunknown
      · simp [next, serve, list, Except.map]
      · exact (r.refused_of_unknown rfl hunknown).2
    rw [hserved]
    exact huntouched (fun q => rfl) rfl
  | clear =>
    have hserved : (r.next .clear).get s = [] := PerStage.get_empty s
    rw [hserved]
    simp [Request.removes, Request.plugin?]

/-! ## Whole histories -/

/-- Whether the last call that concerns a plugin at a stage registers it. -/
def stands (s : Stage) (p : PluginRef m) (requests : List (Request m)) : Bool :=
  (requests.reverse.find? fun request => request.registers s p || request.removes s p).any
    (·.registers s p)

theorem stands_snoc (s : Stage) (p : PluginRef m) (requests : List (Request m))
    (request : Request m) :
    stands s p (requests ++ [request]) =
      (request.registers s p || stands s p requests && !request.removes s p) := by
  rw [stands, List.reverse_append, List.reverse_singleton, List.singleton_append,
    List.find?_cons]
  cases hregisters : request.registers s p <;> cases hremoves : request.removes s p <;>
    simp [hregisters, stands]

/-- A list has a plugin if the last call that concerns the plugin registers it. -/
theorem contains_get_after (requests : List (Request m)) (s : Stage) (p : PluginRef m) :
    ((after requests).get s).contains p = stands s p requests := by
  induction requests using List.reverseRecOn with
  | nil =>
    rw [get_after_nil]
    rfl
  | append_singleton requests request ih =>
    have hkept := PluginRef.contains_filter ((after requests).get s)
      (fun q => !request.removes s q) (p := p) fun q h => by
        rw [request.removes_congr h]
    have hadded := PluginRef.contains_filter (request.plugin? s).toList
      (fun q => !((after requests).get s).contains q) (p := p) fun q h => by
        rw [PluginRef.contains_congr h]
    have hregistered : (request.plugin? s).toList.contains p = request.registers s p := by
      rw [Request.registers]
      cases request.plugin? s <;> simp
    rw [after_snoc, get_next, stands_snoc, List.contains_append, hkept, hadded, hregistered, ih]
    cases hregisters : request.registers s p with
    | false => simp
    | true =>
      rw [Request.removes_eq_false_of_registers hregisters]
      cases stands s p requests <;> rfl

/-- No list has a plugin twice. -/
theorem get_after_distinct (requests : List (Request m)) (s : Stage) :
    ((after requests).get s).Pairwise fun p q => (p == q) = false := by
  induction requests using List.reverseRecOn with
  | nil =>
    rw [get_after_nil]
    exact .nil
  | append_singleton requests request ih =>
    rw [after_snoc, get_next, List.pairwise_append]
    refine ⟨ih.filter _, ?_, ?_⟩
    · cases request.plugin? s with
      | none => exact .nil
      | some q => exact (List.pairwise_singleton _ q).filter _
    · intro p hold q hnew
      have habsent : ((after requests).get s).contains q = false := by
        simpa using (List.mem_filter.mp hnew).2
      have hpresent := (List.mem_filter.mp hold).1
      rw [List.contains_eq_any_beq, List.any_eq_false] at habsent
      rw [PluginRef.beq_comm]
      simpa using habsent p hpresent

/-! ## The order -/

/-- A call adds a plugin that did not stand at its stage, and no later one removes it. -/
structure AddedAt (requests : List (Request m)) (s : Stage) (i : Nat) (p : PluginRef m) :
    Prop where
  request : requests[i]? = some (.register s.name p)
  isNew : stands s p (requests.take i) = false
  stays : ∀ request ∈ requests.drop (i + 1), request.removes s p = false

theorem AddedAt.lt {requests : List (Request m)} {s : Stage} {i : Nat} {p : PluginRef m}
    (h : AddedAt requests s i p) : i < requests.length :=
  (List.getElem?_eq_some_iff.mp h.request).1

/-- After one more call, a plugin that was added counts if the call does not remove
it, and so does the plugin that the call adds. -/
theorem addedAt_snoc {requests : List (Request m)} {request : Request m} {s : Stage} {i : Nat}
    {p : PluginRef m} : AddedAt (requests ++ [request]) s i p ↔
      AddedAt requests s i p ∧ request.removes s p = false ∨
        i = requests.length ∧ request.plugin? s = some p ∧ stands s p requests = false := by
  constructor
  · intro h
    rcases Nat.lt_or_eq_of_le (Nat.le_of_lt_succ (by simpa using h.lt)) with hbefore | rfl
    · left
      have hstays := h.stays
      rw [List.drop_append_of_le_length hbefore] at hstays
      refine ⟨⟨?_, ?_, ?_⟩, hstays request (List.mem_append_right _ (List.mem_singleton_self _))⟩
      · rw [← h.request, List.getElem?_append_left hbefore]
      · rw [← h.isNew, List.take_append_of_le_length (Nat.le_of_lt hbefore)]
      · intro later hmem
        exact hstays later (List.mem_append_left _ hmem)
    · right
      have hlast := h.request
      rw [List.getElem?_concat_length, Option.some.injEq] at hlast
      refine ⟨rfl, Request.plugin?_eq_some_iff.mpr hlast, ?_⟩
      rw [← h.isNew, List.take_left]
  · rintro (⟨h, hkept⟩ | ⟨rfl, hplugin, hnew⟩)
    · refine ⟨?_, ?_, ?_⟩
      · rw [← h.request, List.getElem?_append_left h.lt]
      · rw [← h.isNew, List.take_append_of_le_length (Nat.le_of_lt h.lt)]
      · intro later hmem
        rw [List.drop_append_of_le_length h.lt, List.mem_append, List.mem_singleton] at hmem
        rcases hmem with hearlier | rfl
        · exact h.stays later hearlier
        · exact hkept
    · refine ⟨?_, ?_, ?_⟩
      · rw [List.getElem?_concat_length, Request.plugin?_eq_some_iff.mp hplugin]
      · rw [List.take_left, hnew]
      · intro later hmem
        rw [List.drop_eq_nil_of_le (by simp)] at hmem
        exact absurd hmem List.not_mem_nil

/-- The plugins of a stage with the calls that added them, in the order of the calls. -/
structure Ledger (requests : List (Request m)) (s : Stage) (added : List (Nat × PluginRef m)) :
    Prop where
  ascending : added.Pairwise (·.1 < ·.1)
  mem_iff : ∀ i p, (i, p) ∈ added ↔ AddedAt requests s i p
  list_eq : added.map Prod.snd = (after requests).get s

theorem Ledger.start (s : Stage) : Ledger (m := m) [] s [] where
  ascending := .nil
  mem_iff i p := by
    refine iff_of_false List.not_mem_nil fun h => ?_
    exact absurd h.lt (Nat.not_lt_zero i)
  list_eq := (get_after_nil s).symm

theorem Ledger.snoc {requests : List (Request m)} {s : Stage} {added : List (Nat × PluginRef m)}
    (hledger : Ledger requests s added) (request : Request m) :
    Ledger (requests ++ [request]) s
      (added.filter (fun entry => !request.removes s entry.2) ++
        ((request.plugin? s).toList.filter fun p => !stands s p requests).map
          (requests.length, ·)) where
  ascending := by
    rw [List.pairwise_append]
    refine ⟨hledger.ascending.filter _, ?_, ?_⟩
    · cases request.plugin? s with
      | none => exact .nil
      | some p => cases hstanding : stands s p requests <;> simp [hstanding]
    · rintro ⟨i, p⟩ hold entry hnew
      obtain ⟨q, _, rfl⟩ := List.mem_map.mp hnew
      exact ((hledger.mem_iff i p).mp (List.mem_filter.mp hold).1).lt
  mem_iff i p := by
    rw [addedAt_snoc, ← hledger.mem_iff]
    simp only [List.mem_append, List.mem_filter, List.mem_map, Option.mem_toList,
      Bool.not_eq_true', Prod.mk.injEq]
    constructor
    · rintro (hold | ⟨q, ⟨hplugin, hnew⟩, rfl, rfl⟩)
      · exact .inl hold
      · exact .inr ⟨rfl, hplugin, hnew⟩
    · rintro (hold | ⟨rfl, hplugin, hnew⟩)
      · exact .inl hold
      · exact .inr ⟨p, ⟨hplugin, hnew⟩, rfl, rfl⟩
  list_eq := by
    have hsame := contains_get_after requests s
    rw [after_snoc, get_next, List.map_append, List.map_map, ← hledger.list_eq, List.filter_map,
      hledger.list_eq]
    simp [Function.comp_def, hsame]

theorem exists_ledger (requests : List (Request m)) (s : Stage) :
    ∃ added, Ledger requests s added := by
  induction requests using List.reverseRecOn with
  | nil => exact ⟨[], .start s⟩
  | append_singleton requests request ih =>
    obtain ⟨added, hledger⟩ := ih
    exact ⟨_, hledger.snoc request⟩

/-! ## Conclusion -/

theorem size_eq (r : Registry m) (s : Stage) : r.size = (r.get s).length := by
  cases s
  simp [size, PerStage.flatten, Stage.all, get]

/-- After any history of calls the list of a stage has no plugin twice, it has those whose
last call is a registration, in the order in which they were added last, and there are no
other plugins.  A call for a stage that does not exist is refused and changes nothing. -/
theorem list_after (requests : List (Request m)) (s : Stage) :
    ∃ plugins, (after requests).list s.name = .ok plugins ∧
      plugins.Pairwise (fun p q => (p == q) = false) ∧
      (∀ p, plugins.contains p = stands s p requests) ∧
      (∃ added : List (Nat × PluginRef m), added.map Prod.snd = plugins ∧
        added.Pairwise (·.1 < ·.1) ∧ ∀ i p, (i, p) ∈ added ↔ AddedAt requests s i p) ∧
      (after requests).size = plugins.length ∧
      ∀ request stage, request.stage? = some stage → (∀ s' : Stage, stage ≠ s'.name) →
        (after requests).serve request = .error (.unknownStage stage) ∧
          after (requests ++ [request]) = after requests := by
  obtain ⟨added, hledger⟩ := exists_ledger requests s
  refine ⟨(after requests).get s, ?_, get_after_distinct requests s,
    contains_get_after requests s, ⟨added, hledger.list_eq, hledger.ascending, hledger.mem_iff⟩,
    size_eq _ s, ?_⟩
  · simp [list]
  · intro request stage hnamed hunknown
    obtain ⟨hrefused, hunchanged⟩ := refused_of_unknown (after requests) hnamed hunknown
    exact ⟨hrefused, (after_snoc requests request).trans hunchanged⟩

/-- A history in which one of two plugins is removed and registered again. -/
def rejoining : List (Request Id) :=
  let plugin (name : String) : PluginRef Id := .transform ⟨"Type", name, fun _ t => pure t⟩ name
  [.register "ast" (plugin "a"), .register "ast" (plugin "b"), .register "ast" (plugin "a"),
    .unregister "ast" (plugin "a"), .register "hir" (plugin "b"), .register "ast" (plugin "a")]

theorem list_after_rejoining :
    ∃ plugins, (after rejoining).list "ast" = .ok plugins ∧
      plugins.map PluginRef.name = ["b", "a"] ∧ (after rejoining).size = plugins.length ∧
      (after rejoining).serve (.list "hir") = .error (.unknownStage "hir") ∧
      after (rejoining ++ [.list "hir"]) = after rejoining := by
  obtain ⟨plugins, hlisted, _, _, _, hsize, hrefusal⟩ := list_after rejoining .ast
  have hnames : ((after rejoining).list "ast").map (·.map PluginRef.name) = .ok ["b", "a"] := by
    decide
  have hunknown : ∀ s : Stage, "hir" ≠ s.name := by
    intro s
    cases s
    decide
  refine ⟨plugins, hlisted, ?_, hsize, hrefusal (.list "hir") "hir" rfl hunknown⟩
  rw [show "ast" = Stage.ast.name from rfl, hlisted] at hnames
  exact Except.ok.inj hnames

end Registry

end Bracework
