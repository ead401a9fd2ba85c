/-
Wire programs — different programs have different texts.

A member that would be empty is left out, and every statement and expression says
what it is, so it has to be shown that nothing is lost by the former and nothing
confused in spite of the latter: the JSON of a program tells the program.  With
texts that tell their JSON, a text tells the program that it was printed from.
-/
import Bracework.Proofs.Json.Distinct
import Bracework.Wire.Program

namespace Bracework

/-! ## Members that may be missing -/

/-- A list is told by a member that is left out if the list is empty. -/
theorem memberUnless_inj {α : Type} {xs ys : List α} {key : String} (json : List α → Json)
    (h : memberUnless xs.isEmpty key (json xs) = memberUnless ys.isEmpty key (json ys))
    (hjson : json xs = json ys → xs = ys) : xs = ys := by
  cases xs with
  | nil =>
      cases ys with
      | nil => rfl
      | cons y ys => cases h
  | cons x xs =>
      cases ys with
      | nil => cases h
      | cons y ys =>
          obtain ⟨hvalue, -⟩ := List.cons.inj h
          exact hjson (Prod.mk.inj hvalue).2

/-! ## Expressions -/

mutual
theorem WireExpression.toJson_inj : (e e' : WireExpression) → e.toJson = e'.toJson → e = e'
  | .get path, e', h => by
      cases e' with
      | get => simpa [WireExpression.toJson] using h
      | literal | undefined | call | concat => simp [WireExpression.toJson] at h
  | .literal value, e', h => by
      cases e' with
      | literal => simpa [WireExpression.toJson] using h
      | get | undefined | call | concat => simp [WireExpression.toJson] at h
  | .undefined, e', h => by
      cases e' with
      | undefined => rfl
      | get | literal | call | concat => simp [WireExpression.toJson] at h
  | .call path params hash, e', h => by
      cases e' with
      | call path' params' hash' =>
          simp only [WireExpression.toJson, Json.object.injEq, List.cons_append, List.nil_append,
            List.cons.injEq, Prod.mk.injEq, true_and, Json.string.injEq, Json.array.injEq] at h
          obtain ⟨rfl, hparams, hhash⟩ := h
          obtain rfl := wireParamsJson_inj params params' hparams
          obtain rfl := memberUnless_inj (fun hash => .object (wireHashJson hash)) hhash fun heq =>
            wireHashJson_inj hash hash' (Json.object.inj heq)
          rfl
      | get | literal | undefined | concat => simp [WireExpression.toJson] at h
  | .concat parts, e', h => by
      cases e' with
      | concat parts' =>
          simp only [WireExpression.toJson, Json.object.injEq, List.cons.injEq, Prod.mk.injEq,
            true_and, Json.array.injEq, and_true] at h
          rw [wireParamsJson_inj parts parts' h]
      | get | literal | undefined | call => simp [WireExpression.toJson] at h
theorem wireParamsJson_inj : (es es' : List WireExpression) →
    wireParamsJson es = wireParamsJson es' → es = es'
  | [], [], _ => rfl
  | [], _ :: _, h => nomatch h
  | _ :: _, [], h => nomatch h
  | e :: es, e' :: es', h => by
      obtain ⟨he, hes⟩ := List.cons.inj h
      rw [WireExpression.toJson_inj e e' he, wireParamsJson_inj es es' hes]
theorem wireHashJson_inj : (hash hash' : List (String × WireExpression)) →
    wireHashJson hash = wireHashJson hash' → hash = hash'
  | [], [], _ => rfl
  | [], _ :: _, h => nomatch h
  | _ :: _, [], h => nomatch h
  | (key, e) :: rest, (key', e') :: rest', h => by
      obtain ⟨hargument, hrest⟩ := List.cons.inj h
      obtain ⟨rfl, he⟩ := Prod.mk.inj hargument
      rw [WireExpression.toJson_inj e e' he, wireHashJson_inj rest rest' hrest]
end

theorem WireAttribute.toJson_inj {a a' : WireAttribute} (h : a.toJson = a'.toJson) : a = a' := by
  obtain ⟨name, value⟩ := a
  obtain ⟨name', value'⟩ := a'
  simp only [toJson, Json.object.injEq, List.cons.injEq, Prod.mk.injEq, true_and,
    Json.string.injEq, and_true] at h
  obtain ⟨rfl, hvalue⟩ := h
  rw [WireExpression.toJson_inj value value' hvalue]

/-! ## Statements -/

mutual
theorem WireStatement.toJson_inj : (s s' : WireStatement) → s.toJson = s'.toJson → s = s'
  | .text value, s', h => by
      cases s' with
      | text => simpa [WireStatement.toJson] using h
      | append | comment | element | block => simp [WireStatement.toJson] at h
  | .append e trusting, s', h => by
      cases s' with
      | append e' trusting' =>
          simp only [WireStatement.toJson, Json.object.injEq, List.cons.injEq, Prod.mk.injEq,
            true_and, Json.bool.injEq, and_true] at h
          obtain ⟨he, rfl⟩ := h
          rw [WireExpression.toJson_inj e e' he]
      | text | comment | element | block => simp [WireStatement.toJson] at h
  | .comment value, s', h => by
      cases s' with
      | comment => simpa [WireStatement.toJson] using h
      | text | append | element | block => simp [WireStatement.toJson] at h
  | .element tag attributes modifiers children, s', h => by
      cases s' with
      | element tag' attributes' modifiers' children' =>
          simp only [WireStatement.toJson, Json.object.injEq, List.cons_append, List.nil_append,
            List.cons.injEq, Prod.mk.injEq, true_and, Json.string.injEq, Json.array.injEq] at h
          obtain ⟨rfl, hattributes, hrest⟩ := h
          obtain ⟨hmodifiers, hchildren⟩ := List.append_inj' hrest rfl
          obtain rfl := List.map_injective_iff.mpr (fun _ _ => WireAttribute.toJson_inj) hattributes
          obtain rfl := memberUnless_inj (fun es => .array (es.map WireExpression.toJson))
            hmodifiers fun heq =>
              List.map_injective_iff.mpr WireExpression.toJson_inj (Json.array.inj heq)
          obtain ⟨hmember, -⟩ := List.cons.inj hchildren
          rw [wireStatementsJson_inj children children' (Json.array.inj (Prod.mk.inj hmember).2)]
      | text | append | comment | block => simp [WireStatement.toJson] at h
  | .block call program inverse, s', h => by
      cases s' with
      | block call' program' inverse' =>
          simp only [WireStatement.toJson, Json.object.injEq, List.cons_append, List.nil_append,
            List.cons.injEq, Prod.mk.injEq, true_and] at h
          obtain ⟨hcall, hprogram, hinverse⟩ := h
          rw [WireExpression.toJson_inj call call' hcall,
            WireBlock.toJson_inj program program' hprogram,
            wireInverseJson_inj inverse inverse' hinverse]
      | text | append | comment | element => simp [WireStatement.toJson] at h
theorem WireBlock.toJson_inj : (b b' : WireBlock) → b.toJson = b'.toJson → b = b'
  | ⟨statements, symbols⟩, ⟨statements', symbols'⟩, h => by
      simp only [WireBlock.toJson, Json.object.injEq, List.cons.injEq, Prod.mk.injEq, true_and,
        Json.array.injEq, and_true] at h
      obtain ⟨hstatements, hsymbols⟩ := h
      rw [wireStatementsJson_inj statements statements' hstatements,
        List.map_injective_iff.mpr (fun _ _ => Json.string.inj) hsymbols]
theorem wireInverseJson_inj : (inverse inverse' : Option WireBlock) →
    wireInverseJson inverse = wireInverseJson inverse' → inverse = inverse'
  | none, none, _ => rfl
  | none, some _, h => nomatch h
  | some _, none, h => nomatch h
  | some b, some b', h => by
      obtain ⟨hmember, -⟩ := List.cons.inj h
      rw [WireBlock.toJson_inj b b' (Prod.mk.inj hmember).2]
theorem wireStatementsJson_inj : (ss ss' : List WireStatement) →
    wireStatementsJson ss = wireStatementsJson ss' → ss = ss'
  | [], [], _ => rfl
  | [], _ :: _, h => nomatch h
  | _ :: _, [], h => nomatch h
  | s :: ss, s' :: ss', h => by
      obtain ⟨hs, hss⟩ := List.cons.inj h
      rw [WireStatement.toJson_inj s s' hs, wireStatementsJson_inj ss ss' hss]
end

/-! ## Programs -/

namespace CompiledTemplate

/-- The JSON of a program tells the program. -/
theorem toJson_inj {a b : CompiledTemplate} (h : a.toJson = b.toJson) : a = b := by
  obtain ⟨block, name, strict, metadata⟩ := a
  obtain ⟨block', name', strict', metadata'⟩ := b
  simp only [toJson, Json.object.injEq, List.append_assoc, List.cons_append, List.nil_append,
    List.cons.injEq, Prod.mk.injEq, true_and] at h
  obtain ⟨hblock, hrest⟩ := h
  obtain rfl := WireBlock.toJson_inj block block' hblock
  have hname : name = name' ∧ strict = strict' ∧
      memberUnless metadata.isEmpty "meta" (.object metadata) =
        memberUnless metadata'.isEmpty "meta" (.object metadata') := by
    cases name <;> cases name' <;> simp_all
  obtain ⟨rfl, rfl, hmetadata⟩ := hname
  obtain rfl := memberUnless_inj .object hmetadata Json.object.inj
  rfl

/-- Two programs have the same text only if they are the same program, whatever strings stand in
them and whatever is left out because it is empty. -/
theorem print_eq_iff (a b : CompiledTemplate) : a.print = b.print ↔ a = b := by
  constructor
  · intro h
    exact toJson_inj (Json.indented_inj h)
  · rintro rfl
    rfl

end CompiledTemplate

end Bracework
