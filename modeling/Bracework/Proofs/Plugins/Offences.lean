/-
Plugins — what the plugins that only look object to.

`Offence a n message span` says, apart from the plugins, that the node `n` breaks the
rule of the assertion `a`, in the words and with the place of a complaint.  A plugin
that only looks gives a valid template back as it is if no node that a walk visits
offends, and otherwise it fails with what it has to say of the first one that does.
-/
import Bracework.Proofs.Compile.Reserved
import Bracework.Proofs.Plugins.Assertions
import Bracework.Proofs.Validity.Visited
import Bracework.Proofs.Wire.Conditionals

namespace Bracework

/-! ## Offences -/

/-- A node breaks the rule of an assertion; the words name what stands there, and the span says
where. -/
inductive Offence : Assertion → Node → String → Span → Prop
  | reserved {p : Path} :
      Reserved p.head →
      Offence .reservedArguments ⟨.path, p⟩ ("'" ++ p.head ++ "' is reserved") p.span
  | block {b : BlockStatement} {helper : String} :
      b.call.calleeText? = some helper → Conditional helper → b.call.params.length ≠ 1 →
      Offence .conditionalArguments ⟨.blockStatement, b⟩
        ("\x7b\x7b#" ++ helper ++ "\x7d\x7d requires a single argument") b.span
  | mustache {m : Mustache} {helper : String} :
      m.call.calleeText? = some helper → Conditional helper →
      ¬ (m.call.params.length = 2 ∨ m.call.params.length = 3) →
      Offence .conditionalArguments ⟨.mustache, m⟩
        ("\x7b\x7b" ++ helper ++
          "\x7d\x7d helper requires at least two and at most three arguments") m.span
  | subExpression {s : SubExpression} {helper : String} :
      s.call.calleeText? = some helper → Conditional helper →
      ¬ (s.call.params.length = 2 ∨ s.call.params.length = 3) →
      Offence .conditionalArguments ⟨.subExpression, s⟩
        ("\x7b\x7b" ++ helper ++
          "\x7d\x7d helper requires at least two and at most three arguments") s.span
  | debugger {m : Mustache} :
      m.call.calleeText? = some "debugger" → m.call.params ≠ [] ∨ m.call.hash ≠ [] →
      Offence .debuggerArguments ⟨.mustache, m⟩
        "\x7b\x7bdebugger\x7d\x7d does not take any arguments" m.span

/-- A node breaks the rule of an assertion. -/
def Assertion.Offends (a : Assertion) (n : Node) : Prop := ∃ message span, Offence a n message span

/-! ## Complaints are about offences -/

theorem Path.complaint?_eq_some_iff {p : Path} {complaint : Complaint} :
    p.complaint? = some complaint ↔
      Reserved p.head ∧ complaint = ⟨"'" ++ p.head ++ "' is reserved", p.span⟩ := by
  rw [complaint?, Option.ite_none_right_eq_some, Bool.and_eq_true, isReservedName_iff,
    Option.some.injEq, eq_comm (b := complaint)]
  exact and_congr_left fun _ => ⟨fun h => h.2, fun h => ⟨p.isNamedArgument_of_reserved h, h⟩⟩

theorem BlockStatement.complaint?_eq_some_iff {b : BlockStatement} {complaint : Complaint} :
    b.complaint? = some complaint ↔ ∃ helper, b.call.calleeText? = some helper ∧
      Conditional helper ∧ b.call.params.length ≠ 1 ∧
      complaint = ⟨"\x7b\x7b#" ++ helper ++ "\x7d\x7d requires a single argument", b.span⟩ := by
  rw [complaint?]
  cases b.call.calleeText? with
  | none =>
      constructor
      · intro h
        cases h
      · rintro ⟨_, h, -⟩
        cases h
  | some helper =>
      simp only [Option.ite_none_right_eq_some, Bool.and_eq_true, isConditional_iff, bne_iff_ne,
        Option.some.injEq, exists_eq_left', and_assoc, eq_comm (b := complaint)]

theorem Call.complaint?_eq_some_iff {c : Call} {span : Span} {complaint : Complaint} :
    c.complaint? span = some complaint ↔ ∃ helper, c.calleeText? = some helper ∧
      Conditional helper ∧ ¬ (c.params.length = 2 ∨ c.params.length = 3) ∧
      complaint = ⟨"\x7b\x7b" ++ helper ++
        "\x7d\x7d helper requires at least two and at most three arguments", span⟩ := by
  rw [complaint?]
  cases c.calleeText? with
  | none =>
      constructor
      · intro h
        cases h
      · rintro ⟨_, h, -⟩
        cases h
  | some helper =>
      have hcount : (2 ≤ c.params.length ∧ c.params.length ≤ 3) ↔
          (c.params.length = 2 ∨ c.params.length = 3) := by omega
      simp only [Option.ite_none_right_eq_some, Bool.and_eq_true, isConditional_iff,
        Bool.not_eq_true', Bool.and_eq_false_iff, decide_eq_false_iff_not, ← not_and_or, hcount,
        Option.some.injEq, exists_eq_left', and_assoc, eq_comm (b := complaint)]

theorem Mustache.debuggerComplaint?_eq_some_iff {m : Mustache} {complaint : Complaint} :
    m.debuggerComplaint? = some complaint ↔ m.call.calleeText? = some "debugger" ∧
      (m.call.params ≠ [] ∨ m.call.hash ≠ []) ∧
      complaint = ⟨"\x7b\x7bdebugger\x7d\x7d does not take any arguments", m.span⟩ := by
  have hbare : (!m.call.isBare) = true ↔ m.call.params ≠ [] ∨ m.call.hash ≠ [] := by
    rw [Call.isBare, Bool.not_and, Bool.or_eq_true, Bool.not_eq_true', Bool.not_eq_true',
      List.isEmpty_eq_false_iff, List.isEmpty_eq_false_iff]
  rw [debuggerComplaint?, Option.ite_none_right_eq_some, Bool.and_eq_true, beq_iff_eq, hbare,
    Option.some.injEq, eq_comm (b := complaint), and_assoc]

/-- A plugin that only looks complains of a node exactly if it offends. -/
theorem Assertion.complaint?_eq_some_iff {a : Assertion} {n : Node} {complaint : Complaint} :
    a.complaint? n = some complaint ↔ Offence a n complaint.message complaint.span := by
  obtain ⟨kind, value⟩ := n
  constructor
  · intro h
    cases a with
    | reservedArguments =>
        cases kind with
        | path =>
            obtain ⟨hreserved, rfl⟩ := Path.complaint?_eq_some_iff.mp h
            exact .reserved hreserved
        | _ => cases h
    | conditionalArguments =>
        cases kind with
        | blockStatement =>
            obtain ⟨helper, hcallee, hhelper, hcount, rfl⟩ :=
              BlockStatement.complaint?_eq_some_iff.mp h
            exact .block hcallee hhelper hcount
        | mustache =>
            obtain ⟨helper, hcallee, hhelper, hcount, rfl⟩ := Call.complaint?_eq_some_iff.mp h
            exact .mustache hcallee hhelper hcount
        | subExpression =>
            obtain ⟨helper, hcallee, hhelper, hcount, rfl⟩ := Call.complaint?_eq_some_iff.mp h
            exact .subExpression hcallee hhelper hcount
        | _ => cases h
    | debuggerArguments =>
        cases kind with
        | mustache =>
            obtain ⟨hcallee, harguments, rfl⟩ := Mustache.debuggerComplaint?_eq_some_iff.mp h
            exact .debugger hcallee harguments
        | _ => cases h
  · obtain ⟨message, span⟩ := complaint
    intro h
    cases h with
    | reserved hreserved => exact Path.complaint?_eq_some_iff.mpr ⟨hreserved, rfl⟩
    | block hcallee hhelper hcount =>
        exact BlockStatement.complaint?_eq_some_iff.mpr ⟨_, hcallee, hhelper, hcount, rfl⟩
    | mustache hcallee hhelper hcount =>
        exact Call.complaint?_eq_some_iff.mpr ⟨_, hcallee, hhelper, hcount, rfl⟩
    | subExpression hcallee hhelper hcount =>
        exact Call.complaint?_eq_some_iff.mpr ⟨_, hcallee, hhelper, hcount, rfl⟩
    | debugger hcallee harguments =>
        exact Mustache.debuggerComplaint?_eq_some_iff.mpr ⟨hcallee, harguments, rfl⟩

theorem Assertion.complaint?_eq_none_iff {a : Assertion} {n : Node} :
    a.complaint? n = none ↔ ¬ a.Offends n := by
  rw [Option.eq_none_iff_forall_ne_some]
  constructor
  · rintro h ⟨message, span, hoffence⟩
    exact h ⟨message, span⟩ (complaint?_eq_some_iff.mpr hoffence)
  · intro h complaint hcomplaint
    exact h ⟨_, _, complaint?_eq_some_iff.mp hcomplaint⟩

instance (a : Assertion) (n : Node) : Decidable (a.Offends n) :=
  decidable_of_iff (¬ a.complaint? n = none) (not_iff_comm.mp Assertion.complaint?_eq_none_iff.symm)

/-! ## What such a plugin comes to -/

section
variable {m : Type → Type} [Monad m] [LawfulMonad m]

/-- A plugin that only looks gives a valid template back as it is if no node offends.  Otherwise it
fails in its own name with what there is to say of the first node that does, in the order in which a
walk visits the nodes, and with the byte at which that node starts. -/
theorem Template.assertion_exact {t : Template} (h : t.validate = .ok ()) (a : Assertion)
    (c : PluginContext) :
    ((∀ n ∈ t.visited, ¬ a.Offends n) →
      a.plugin.applyOnce c t = (pure t : ExceptT PluginError m Template)) ∧
    ∀ before n after message span, t.visited = before ++ n :: after →
      (∀ n' ∈ before, ¬ a.Offends n') → Offence a n message span →
      a.plugin.applyOnce c t =
        (throw (.failed (a.plugin (m := m)).name (located message c.moduleName span)) :
          ExceptT PluginError m Template) := by
  rw [visited_eq, a.applyOnce_plugin, asserted]
  refine ⟨fun hnone => ?_, fun before n after message span hnodes hnone hoffence => ?_⟩
  · have hcomplaint : t.complaint? a = none :=
      complaint?_eq_none_iff.mpr fun n hn => Assertion.complaint?_eq_none_iff.mpr (hnone n hn)
    rw [hcomplaint, PluginRef.judge, h]
    rfl
  · have hcomplaint : t.complaint? a = some ⟨message, span⟩ := by
      have hbefore : before.findSome? a.complaint? = none :=
        List.findSome?_eq_none_iff.mpr fun n' hn' =>
          Assertion.complaint?_eq_none_iff.mpr (hnone n' hn')
      have hn : a.complaint? n = some ⟨message, span⟩ :=
        Assertion.complaint?_eq_some_iff.mpr hoffence
      rw [complaint?, hnodes, List.findSome?_append, hbefore, Option.none_or,
        List.findSome?_cons, hn]
    rw [hcomplaint]
    rfl

end

/-- A template with three conditionals that lack arguments: in an attribute value, in a modifier
and behind both. -/
def Template.bareConditionals : Template where
  body := [
    .element ⟨"p",
      [⟨"class", .concat [.text ⟨"x", .none⟩, .mustache { call := ⟨.path ⟨"f", .none⟩, [],
        [("k", .sub ⟨.path ⟨"unless", .none⟩, [.path ⟨"a", .none⟩], []⟩ ⟨19, 29⟩)]⟩ }], .none⟩],
      [{ call := ⟨.path ⟨"if", .none⟩, [], []⟩ }],
      [.block ⟨⟨.path ⟨"if", .none⟩, [], []⟩, ⟨[], []⟩, none, .none⟩], false, .none⟩]

theorem Template.assertion_exact_conditionals :
    bareConditionals.validate = .ok () ∧
    Assertion.conditionalArguments.plugin.applyOnce { moduleName := some "app/x" }
        bareConditionals =
      (throw (.failed "assert-if-helper-without-arguments"
        ("\x7b\x7bunless\x7d\x7d helper requires at least two and at most three arguments " ++
          "('app/x' @ byte 19)")) : ExceptT PluginError Id Template) ∧
    Assertion.debuggerArguments.plugin.applyOnce {} bareConditionals =
      (pure bareConditionals : ExceptT PluginError Id Template) := by
  have hvalid : bareConditionals.validate = .ok () := by decide +kernel
  have hconditionals := (assertion_exact (m := Id) hvalid .conditionalArguments
    { moduleName := some "app/x" }).2
  have hdebugger := (assertion_exact (m := Id) hvalid .debuggerArguments {}).1
  rw [visited_eq] at hconditionals hdebugger
  refine ⟨hvalid, ?_, hdebugger (by decide)⟩
  have hfirst := hconditionals (bareConditionals.nodes.take 6)
    ⟨.subExpression, ⟨⟨.path ⟨"unless", .none⟩, [.path ⟨"a", .none⟩], []⟩, ⟨19, 29⟩⟩⟩
    (bareConditionals.nodes.drop 7) _ _ rfl (by decide)
    (.subExpression rfl (.inr rfl) (by decide))
  exact hfirst

end Bracework
