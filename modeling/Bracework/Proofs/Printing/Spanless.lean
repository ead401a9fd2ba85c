/-
Printing — spans leave no trace.

Neither the text of a tree nor whether it can be written depends on where its
nodes come from.  So a tree that differs from another in its spans alone may
stand in for it.
-/
import Bracework.Proofs.Printing.Printable

namespace Bracework

/-! ## Expressions and calls -/

theorem Expression.isWord_eraseSpans (word : String) (e : Expression) :
    e.eraseSpans.isWord word = e.isWord word := by
  cases e <;> rfl

theorem isEmpty_eraseParamsSpans (es : List Expression) :
    (eraseParamsSpans es).isEmpty = es.isEmpty := by
  cases es <;> rfl

theorem isEmpty_eraseHashSpans (hash : List (String × Expression)) :
    (eraseHashSpans hash).isEmpty = hash.isEmpty := by
  cases hash <;> rfl

mutual
theorem Expression.source_eraseSpans : (e : Expression) → e.eraseSpans.source = e.source
  | .path _ => rfl
  | .literal _ => rfl
  | .sub c _ => by
      rw [Expression.eraseSpans, Expression.source, Expression.source, Call.source_eraseSpans c]
theorem Call.source_eraseSpans : (c : Call) → c.eraseSpans.source = c.source
  | ⟨callee, params, hash⟩ => by
      rw [Call.eraseSpans, Call.source, Call.source, Expression.source_eraseSpans callee,
        paramsSource_erase params, hashSource_erase hash]
theorem paramsSource_erase : (es : List Expression) →
    paramsSource (eraseParamsSpans es) = paramsSource es
  | [] => rfl
  | e :: es => by
      rw [eraseParamsSpans, paramsSource, paramsSource, Expression.source_eraseSpans e,
        paramsSource_erase es]
theorem hashSource_erase : (hash : List (String × Expression)) →
    hashSource (eraseHashSpans hash) = hashSource hash
  | [] => rfl
  | (key, e) :: rest => by
      rw [eraseHashSpans, hashSource, hashSource, Expression.source_eraseSpans e,
        hashSource_erase rest]
end

mutual
theorem Expression.isPrintable_eraseSpans : (e : Expression) →
    e.eraseSpans.isPrintable = e.isPrintable
  | .path _ => rfl
  | .literal _ => rfl
  | .sub c _ => by
      rw [Expression.eraseSpans, Expression.isPrintable, Expression.isPrintable,
        Call.isPrintable_eraseSpans c]
theorem Call.isPrintable_eraseSpans : (c : Call) → (withParams : Bool) →
    c.eraseSpans.isPrintable withParams = c.isPrintable withParams
  | ⟨callee, params, hash⟩, withParams => by
      rw [Call.eraseSpans, Call.isPrintable, Call.isPrintable,
        Expression.isPrintable_eraseSpans callee, Expression.isWord_eraseSpans,
        isEmpty_eraseParamsSpans, isEmpty_eraseHashSpans, paramsPrintable_erase params,
        hashPrintable_erase hash]
theorem paramsPrintable_erase : (es : List Expression) → (before : Bool) →
    paramsPrintable (eraseParamsSpans es) before = paramsPrintable es before
  | [], _ => rfl
  | e :: es, before => by
      rw [eraseParamsSpans, paramsPrintable, paramsPrintable, Expression.isPrintable_eraseSpans e,
        Expression.isWord_eraseSpans, isEmpty_eraseParamsSpans, paramsPrintable_erase es before]
theorem hashPrintable_erase : (hash : List (String × Expression)) →
    hashPrintable (eraseHashSpans hash) = hashPrintable hash
  | [] => rfl
  | (key, e) :: rest => by
      rw [eraseHashSpans, hashPrintable, hashPrintable, Expression.isPrintable_eraseSpans e,
        hashPrintable_erase rest]
end

/-! ## Attributes -/

theorem Mustache.source_eraseSpans (m : Mustache) : m.eraseSpans.source = m.source := by
  rw [eraseSpans, source, source, Call.source_eraseSpans]

theorem Mustache.isPrintable_eraseSpans (m : Mustache) :
    m.eraseSpans.isPrintable = m.isPrintable :=
  m.call.isPrintable_eraseSpans false

theorem AttributePart.source_eraseSpans (p : AttributePart) : p.eraseSpans.source = p.source := by
  cases p with
  | text t => rfl
  | mustache m => exact m.source_eraseSpans

theorem partsPrintable_erase (parts : List AttributePart) :
    partsPrintable (parts.map AttributePart.eraseSpans) = partsPrintable parts := by
  induction parts with
  | nil => rfl
  | cons p parts ih =>
      cases p with
      | mustache m =>
          rw [List.map_cons, AttributePart.eraseSpans, partsPrintable, partsPrintable, ih,
            Mustache.isPrintable_eraseSpans]
      | text t =>
          cases parts with
          | nil => rfl
          | cons next parts =>
              cases next <;>
                simp only [List.map_cons, AttributePart.eraseSpans, partsPrintable] at ih ⊢ <;>
                rw [ih] <;> rfl

theorem AttributeValue.isPrintable_eraseSpans (v : AttributeValue) :
    v.eraseSpans.isPrintable = v.isPrintable := by
  cases v with
  | text t => rfl
  | mustache m => exact m.isPrintable_eraseSpans
  | concat parts =>
      have hkind : AttributePart.isMustache ∘ AttributePart.eraseSpans =
          AttributePart.isMustache := by
        funext p
        cases p <;> rfl
      rw [eraseSpans, isPrintable, isPrintable, partsPrintable_erase, List.any_map, hkind]

theorem Attribute.source_eraseSpans (a : Attribute) : a.eraseSpans.source = a.source := by
  obtain ⟨name, value, span⟩ := a
  cases value with
  | text t => rfl
  | mustache m => simp only [eraseSpans, AttributeValue.eraseSpans, source, m.source_eraseSpans]
  | concat parts =>
      simp only [eraseSpans, AttributeValue.eraseSpans, source, List.flatMap_map,
        AttributePart.source_eraseSpans]

theorem Attribute.isPrintable_eraseSpans (a : Attribute) :
    a.eraseSpans.isPrintable = a.isPrintable := by
  rw [eraseSpans, isPrintable, isPrintable, AttributeValue.isPrintable_eraseSpans]

/-! ## Statements -/

theorem openingSource_erase (tag : String) (attributes : List Attribute)
    (modifiers : List Mustache) :
    openingSource tag (attributes.map Attribute.eraseSpans) (modifiers.map Mustache.eraseSpans) =
      openingSource tag attributes modifiers := by
  simp only [openingSource, List.flatMap_map, Attribute.source_eraseSpans,
    Mustache.source_eraseSpans]

theorem Call.calleeText?_eraseSpans (c : Call) : c.eraseSpans.calleeText? = c.calleeText? := by
  obtain ⟨callee, params, hash⟩ := c
  cases callee <;> rfl

theorem isEmpty_eraseStatementsSpans (ss : List Statement) :
    (eraseStatementsSpans ss).isEmpty = ss.isEmpty := by
  cases ss <;> rfl

theorem Statement.fitsBefore_erase (braceCloses : Bool) (s : Statement) (ss : List Statement) :
    s.eraseSpans.fitsBefore braceCloses (eraseStatementsSpans ss) =
      s.fitsBefore braceCloses ss := by
  cases s with
  | text t =>
      cases ss with
      | nil => rfl
      | cons next ss => cases next <;> rfl
  | _ => rfl

mutual
theorem Statement.source_eraseSpans : (s : Statement) → s.eraseSpans.source = s.source
  | .element e => Element.source_eraseSpans e
  | .text _ => rfl
  | .mustache m => m.source_eraseSpans
  | .block b => BlockStatement.source_eraseSpans b
  | .comment _ => rfl
theorem Element.source_eraseSpans : (e : Element) → e.eraseSpans.source = e.source
  | ⟨tag, attributes, modifiers, children, selfClosing, span⟩ => by
      rw [Element.eraseSpans, Element.source, Element.source, openingSource_erase,
        statementsSource_erase children]
theorem BlockStatement.source_eraseSpans : (b : BlockStatement) → b.eraseSpans.source = b.source
  | ⟨call, ⟨body, params⟩, inverse, span⟩ => by
      rw [BlockStatement.eraseSpans, Block.eraseSpans, BlockStatement.source,
        BlockStatement.source, Call.source_eraseSpans, Call.calleeText?_eraseSpans,
        statementsSource_erase body, inverseSource_erase inverse]
theorem inverseSource_erase : (inverse : Option Block) →
    inverseSource (eraseInverseSpans inverse) = inverseSource inverse
  | none => rfl
  | some ⟨body, params⟩ => by
      rw [eraseInverseSpans, Block.eraseSpans, inverseSource, inverseSource,
        statementsSource_erase body]
theorem statementsSource_erase : (ss : List Statement) →
    statementsSource (eraseStatementsSpans ss) = statementsSource ss
  | [] => rfl
  | s :: ss => by
      rw [eraseStatementsSpans, statementsSource, statementsSource, Statement.source_eraseSpans s,
        statementsSource_erase ss]
end

mutual
theorem Statement.isPrintable_eraseSpans : (s : Statement) →
    s.eraseSpans.isPrintable = s.isPrintable
  | .element e => Element.isPrintable_eraseSpans e
  | .text _ => rfl
  | .mustache ⟨⟨callee, params, hash⟩, trusting, span⟩ => by
      rw [Statement.eraseSpans, Statement.isPrintable, Statement.isPrintable,
        Mustache.isPrintable_eraseSpans, ← Expression.isWord_eraseSpans "else" callee]
      rfl
  | .block b => BlockStatement.isPrintable_eraseSpans b
  | .comment _ => rfl
theorem Element.isPrintable_eraseSpans : (e : Element) → e.eraseSpans.isPrintable = e.isPrintable
  | ⟨tag, attributes, modifiers, children, selfClosing, span⟩ => by
      simp only [Element.eraseSpans, Element.isPrintable, List.all_map, Function.comp_def,
        Attribute.isPrintable_eraseSpans, Mustache.isPrintable_eraseSpans,
        isEmpty_eraseStatementsSpans, statementsPrintable_erase children]
theorem BlockStatement.isPrintable_eraseSpans : (b : BlockStatement) →
    b.eraseSpans.isPrintable = b.isPrintable
  | ⟨call, ⟨body, params⟩, inverse, span⟩ => by
      rw [BlockStatement.eraseSpans, Block.eraseSpans, BlockStatement.isPrintable,
        BlockStatement.isPrintable, Call.isPrintable_eraseSpans, statementsPrintable_erase body,
        inversePrintable_erase inverse]
theorem inversePrintable_erase : (inverse : Option Block) →
    inversePrintable (eraseInverseSpans inverse) = inversePrintable inverse
  | none => rfl
  | some ⟨body, params⟩ => by
      rw [eraseInverseSpans, Block.eraseSpans, inversePrintable, inversePrintable,
        statementsPrintable_erase body]
theorem statementsPrintable_erase : (ss : List Statement) → (braceCloses : Bool) →
    statementsPrintable (eraseStatementsSpans ss) braceCloses = statementsPrintable ss braceCloses
  | [], _ => rfl
  | s :: ss, braceCloses => by
      rw [eraseStatementsSpans, statementsPrintable, statementsPrintable,
        Statement.isPrintable_eraseSpans s, Statement.fitsBefore_erase,
        statementsPrintable_erase ss braceCloses]
end

/-! ## Templates -/

theorem Template.print_eq_of_erase {t t' : Template} (h : t'.eraseSpans = t.eraseSpans) :
    t'.print = t.print := by
  have hbody := congrArg Template.body h
  rw [print, print, source, source, ← statementsSource_erase t.body, ← statementsSource_erase]
  exact congrArg (String.ofList ∘ statementsSource) hbody

theorem Template.isPrintable_eq_of_erase {t t' : Template} (h : t'.eraseSpans = t.eraseSpans) :
    t'.isPrintable = t.isPrintable := by
  have hbody := congrArg Template.body h
  have hparams := congrArg Template.params h
  dsimp only [eraseSpans] at hbody hparams
  rw [isPrintable, isPrintable, hparams, ← statementsPrintable_erase t.body, ← hbody,
    statementsPrintable_erase]

end Bracework
