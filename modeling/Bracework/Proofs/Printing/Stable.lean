/-
Printing — what a source loses when it is written and read again.

A tree that was read is canonical, and most of what printing asks for is that.
What a reader can give back and the printer cannot write is little, and it can
be seen at single nodes: a double quote between the quotes of an attribute, an
opening of a mustache in a value that stood there without quotes, a numeral
beyond all numbers, and the words `as` and `else` where they came to stand in
front of a blank.  A tree in which no node is of this kind survives, and no
other tree does.
-/
import Bracework.Proofs.Printing.OwnText
import Bracework.Proofs.Printing.Spanless
import Mathlib.Tactic.Tauto

namespace Bracework

/-! ## The rules -/

/-- Whether an expression is no number without a numeral. -/
def Expression.isFinite : Expression → Bool
  | .literal (.number value) => value.isFinite
  | _ => true

/-- Whether the word `as` stands last among expressions, and before nothing else. -/
def asStandsLast : List Expression → Bool → Bool
  | [], _ => true
  | e :: es, before => !(e.isWord "as" && (before || !es.isEmpty)) && asStandsLast es before

/-- The rule of calls, before block parameters or not. -/
def Call.isStable (c : Call) (withParams : Bool) : Bool :=
  asStandsLast (c.callee :: c.params) (withParams || !c.hash.isEmpty) &&
    c.callee.isFinite && c.params.all Expression.isFinite &&
    c.hash.all fun argument => argument.2.isFinite

/-- Whether a piece of a value can stand between double quotes. -/
def AttributePart.isStable : AttributePart → Bool
  | .text t => isQuotable t.chars.toList
  | .mustache _ => true

/-- The rule of values: their texts can stand between double quotes. -/
def AttributeValue.isStable : AttributeValue → Bool
  | .text t => isQuotable t.chars.toList
  | .mustache _ => true
  | .concat parts => parts.all AttributePart.isStable

/-- Whether a statement is no mustache that would be taken for an else mark. -/
def Statement.isNoElse : Statement → Bool
  | .mustache m => m.trusting || !m.call.callee.isWord "else"
  | _ => true

/-- The rule of a kind of node. -/
def Kind.isStable : (k : Kind) → k.Node → Bool
  | .template, t => t.body.all Statement.isNoElse
  | .block, b => b.body.all Statement.isNoElse
  | .element, e => e.children.all Statement.isNoElse
  | .attr, a => a.value.isStable
  | .text, _ => true
  | .mustache, m => m.call.isStable false
  | .blockStatement, b => b.call.isStable (!b.program.params.isEmpty)
  | .comment, _ => true
  | .path, _ => true
  | .subExpression, s => s.call.isStable false

/-- Whether a node survives that its tree is written and read again. -/
def Node.isStable (n : Node) : Bool := n.kind.isStable n.value

/-! ## Expressions and calls -/

mutual
theorem Expression.isPrintable_iff : {e : Expression} → e.leavesQuote = true →
    Everywhere Node.isCanonical e.nodes →
    (e.isPrintable = true ↔ e.isFinite = true ∧ Everywhere Node.isStable e.nodes)
  | .path _, _, hn =>
      ⟨fun _ => ⟨rfl, Everywhere.singleton_iff.mpr rfl⟩, fun _ => Everywhere.singleton_iff.mp hn⟩
  | .literal (.string _), hq, _ => ⟨fun _ => ⟨rfl, Everywhere.nil⟩, fun _ => hq⟩
  | .literal (.number _), _, _ => ⟨fun h => ⟨h, Everywhere.nil⟩, fun h => h.1⟩
  | .literal (.boolean _), _, _ => ⟨fun _ => ⟨rfl, Everywhere.nil⟩, fun _ => rfl⟩
  | .literal .null, _, _ => ⟨fun _ => ⟨rfl, Everywhere.nil⟩, fun _ => rfl⟩
  | .literal .undefined, _, _ => ⟨fun _ => ⟨rfl, Everywhere.nil⟩, fun _ => rfl⟩
  | .sub c _, _, hn => by
      obtain ⟨hc, hn⟩ := Everywhere.cons_iff.mp hn
      rw [Expression.isPrintable, Expression.nodes, Everywhere.cons_iff,
        Call.isPrintable_iff c false hc hn]
      exact (and_iff_right rfl).symm
theorem Call.isPrintable_iff : (c : Call) → (withParams : Bool) → c.isCanonical = true →
    Everywhere Node.isCanonical c.nodes →
    (c.isPrintable withParams = true ↔
      c.isStable withParams = true ∧ Everywhere Node.isStable c.nodes)
  | ⟨callee, params, hash⟩, withParams, hc, hn => by
      simp only [Call.isCanonical, Bool.and_eq_true] at hc
      simp only [Call.nodes, Everywhere.append_iff] at hn ⊢
      have hcallee := Expression.isPrintable_iff hc.1.1 hn.1.1
      have hparams := paramsPrintable_iff (withParams || !hash.isEmpty) hc.1.2 hn.1.2
      have hhash := hashPrintable_iff hc.2 hn.2
      simp only [Call.isPrintable, Call.isStable, asStandsLast, Bool.and_eq_true, hcallee, hparams,
        hhash, Bool.or_right_comm withParams]
      tauto
theorem paramsPrintable_iff : {es : List Expression} → (before : Bool) →
    es.all Expression.leavesQuote = true → Everywhere Node.isCanonical (paramsNodes es) →
    (paramsPrintable es before = true ↔ asStandsLast es before = true ∧
      es.all Expression.isFinite = true ∧ Everywhere Node.isStable (paramsNodes es))
  | [], _, _, _ => ⟨fun _ => ⟨rfl, rfl, Everywhere.nil⟩, fun _ => rfl⟩
  | e :: es, before, hc, hn => by
      rw [List.all_cons, Bool.and_eq_true] at hc
      simp only [paramsNodes, Everywhere.append_iff] at hn ⊢
      have he := Expression.isPrintable_iff hc.1 hn.1
      have hes := paramsPrintable_iff before hc.2 hn.2
      simp only [paramsPrintable, asStandsLast, List.all_cons, Bool.and_eq_true, he, hes]
      tauto
theorem hashPrintable_iff : {hash : List (String × Expression)} →
    (hash.all fun argument => isArgumentName argument.1 && argument.2.leavesQuote) = true →
    Everywhere Node.isCanonical (hashNodes hash) →
    (hashPrintable hash = true ↔ (hash.all fun argument => argument.2.isFinite) = true ∧
      Everywhere Node.isStable (hashNodes hash))
  | [], _, _ => ⟨fun _ => ⟨rfl, Everywhere.nil⟩, fun _ => rfl⟩
  | (key, e) :: hash, hc, hn => by
      rw [List.all_cons, Bool.and_eq_true, Bool.and_eq_true] at hc
      simp only [hashNodes, Everywhere.append_iff] at hn ⊢
      have he := Expression.isPrintable_iff hc.1.2 hn.1
      have hhash := hashPrintable_iff hc.2 hn.2
      simp only [hashPrintable, List.all_cons, Bool.and_eq_true, hc.1.1, he, hhash]
      tauto
end

theorem Mustache.isPrintable_iff {m : Mustache} (h : Everywhere Node.isCanonical m.nodes) :
    m.isPrintable = true ↔ Everywhere Node.isStable m.nodes := by
  obtain ⟨hc, hn⟩ := Everywhere.cons_iff.mp h
  rw [isPrintable, Call.isPrintable_iff _ _ hc hn, nodes, Everywhere.cons_iff]
  rfl

/-! ## Attributes -/

theorem AttributePart.isPrintable_iff {p : AttributePart}
    (h : Everywhere Node.isCanonical p.nodes) :
    p.isPrintable = true ↔ p.isStable = true ∧ Everywhere Node.isStable p.nodes := by
  cases p with
  | text t => exact (and_iff_left (Everywhere.singleton_iff.mpr rfl)).symm
  | mustache m => exact (Mustache.isPrintable_iff h).trans (and_iff_right rfl).symm

theorem AttributeValue.isPrintable_iff {v : AttributeValue} (hc : v.isCanonical = true)
    (hn : Everywhere Node.isCanonical v.nodes) :
    v.isPrintable = true ↔ v.isStable = true ∧ Everywhere Node.isStable v.nodes := by
  cases v with
  | text t => exact (and_iff_left (Everywhere.singleton_iff.mpr rfl)).symm
  | mustache m => exact (Mustache.isPrintable_iff hn).trans (and_iff_right rfl).symm
  | concat parts =>
      rw [isCanonical, Bool.and_eq_true] at hc
      rw [nodes, Everywhere.flatMap_iff] at hn ⊢
      rw [isPrintable, hc.1, Bool.true_and, partsPrintable_iff hc.2, isStable, List.all_eq_true,
        ← forall₂_and]
      exact forall₂_congr fun p hp => AttributePart.isPrintable_iff (hn p hp)

theorem Attribute.isPrintable_iff {a : Attribute} (h : Everywhere Node.isCanonical a.nodes) :
    a.isPrintable = true ↔ Everywhere Node.isStable a.nodes := by
  obtain ⟨hc, hn⟩ := Everywhere.cons_iff.mp h
  have hc : a.isCanonical = true := hc
  rw [isCanonical, Bool.and_eq_true] at hc
  rw [isPrintable, hc.1, Bool.true_and, AttributeValue.isPrintable_iff hc.2 hn, nodes,
    Everywhere.cons_iff]
  rfl

/-! ## The tree -/

/-- If of each of several parts it holds that it can be written exactly if its nodes are stable,
it holds of all of them. -/
theorem all_iff_everywhere {α : Type} {nodes : α → List Node} {test : α → Bool} {as : List α}
    (h : ∀ {a}, Everywhere Node.isCanonical (nodes a) →
      (test a = true ↔ Everywhere Node.isStable (nodes a)))
    (hn : Everywhere Node.isCanonical (as.flatMap nodes)) :
    as.all test = true ↔ Everywhere Node.isStable (as.flatMap nodes) := by
  rw [Everywhere.flatMap_iff] at hn ⊢
  rw [List.all_eq_true]
  exact forall₂_congr fun a ha => h (hn a ha)

mutual
theorem Statement.isPrintable_iff : {s : Statement} → s.isPlain = true →
    Everywhere Node.isCanonical s.nodes →
    (s.isPrintable = true ↔ s.isNoElse = true ∧ Everywhere Node.isStable s.nodes)
  | .element e, _, hn => (Element.isPrintable_iff e hn).trans (and_iff_right rfl).symm
  | .text _, hp, _ => ⟨fun _ => ⟨rfl, Everywhere.singleton_iff.mpr rfl⟩, fun _ => hp⟩
  | .mustache m, _, hn => by
      rw [Statement.isPrintable, Bool.and_eq_true, Mustache.isPrintable_iff hn, and_comm]
      rfl
  | .block b, _, hn => (BlockStatement.isPrintable_iff b hn).trans (and_iff_right rfl).symm
  | .comment _, _, hn =>
      ⟨fun _ => ⟨rfl, Everywhere.singleton_iff.mpr rfl⟩, fun _ => Everywhere.singleton_iff.mp hn⟩
theorem Element.isPrintable_iff : (e : Element) → Everywhere Node.isCanonical e.nodes →
    (e.isPrintable = true ↔ Everywhere Node.isStable e.nodes)
  | ⟨tag, attributes, modifiers, children, selfClosing, span⟩, hn => by
      obtain ⟨hc, hn⟩ := Everywhere.cons_iff.mp hn
      simp only [Node.isCanonical, Kind.isCanonical, Bool.and_eq_true] at hc
      simp only [Everywhere.append_iff] at hn
      have hattributes := all_iff_everywhere Attribute.isPrintable_iff hn.1.1
      have hmodifiers := all_iff_everywhere Mustache.isPrintable_iff hn.1.2
      have hchildren := statementsPrintable_iff hc.2 hn.2
      have hvoid : (!(selfClosing || Element.voidTags.contains tag) || children.isEmpty) = true :=
        hc.1.2
      simp only [Element.isPrintable, Bool.and_eq_true, hc.1.1, hvoid, hattributes, hmodifiers,
        hchildren, Element.nodes, Everywhere.cons_iff, Everywhere.append_iff, Node.isStable,
        Kind.isStable]
      tauto
theorem BlockStatement.isPrintable_iff : (b : BlockStatement) →
    Everywhere Node.isCanonical b.nodes →
    (b.isPrintable = true ↔ Everywhere Node.isStable b.nodes)
  | ⟨call, ⟨body, params⟩, inverse, span⟩, hn => by
      simp only [BlockStatement.nodes, Block.nodes, Everywhere.cons_iff, Everywhere.append_iff,
        Node.isCanonical, Kind.isCanonical, Bool.and_eq_true] at hn
      obtain ⟨⟨hcall, hinverse⟩, ⟨hcallNodes, ⟨hparams, hbody⟩, hbodyNodes⟩, hinverseNodes⟩ := hn
      have hcall := Call.isPrintable_iff call (!params.isEmpty) hcall hcallNodes
      have hbody := statementsPrintable_iff hbody hbodyNodes
      have hinverse := inversePrintable_iff inverse hinverse hinverseNodes
      simp only [BlockStatement.isPrintable, Bool.and_eq_true, hcall, hparams, hbody, hinverse,
        BlockStatement.nodes, Block.nodes, Everywhere.cons_iff, Everywhere.append_iff,
        Node.isStable, Kind.isStable]
      tauto
theorem inversePrintable_iff : (inverse : Option Block) → inverseCanonical inverse = true →
    Everywhere Node.isCanonical (inverseNodes inverse) →
    (inversePrintable inverse = true ↔ Everywhere Node.isStable (inverseNodes inverse))
  | none, _, _ => ⟨fun _ => Everywhere.nil, fun _ => rfl⟩
  | some ⟨body, params⟩, hc, hn => by
      simp only [inverseNodes, Block.nodes, Everywhere.cons_iff, Node.isCanonical,
        Kind.isCanonical, Bool.and_eq_true] at hn
      have hbody := statementsPrintable_iff hn.1.2 hn.2
      have hparams : params.isEmpty = true := hc
      simp only [inversePrintable, Bool.and_eq_true, hparams, hbody, inverseNodes, Block.nodes,
        Everywhere.cons_iff, Node.isStable, Kind.isStable, true_and]
theorem statementsPrintable_iff : {ss : List Statement} → {braceCloses : Bool} →
    bodyCanonical braceCloses ss = true → Everywhere Node.isCanonical (statementsNodes ss) →
    (statementsPrintable ss braceCloses = true ↔
      ss.all Statement.isNoElse = true ∧ Everywhere Node.isStable (statementsNodes ss))
  | [], _, _, _ => ⟨fun _ => ⟨rfl, Everywhere.nil⟩, fun _ => rfl⟩
  | s :: ss, _, hc, hn => by
      simp only [bodyCanonical, Bool.and_eq_true] at hc
      simp only [statementsNodes, Everywhere.append_iff] at hn ⊢
      have hs := Statement.isPrintable_iff hc.1.1 hn.1
      have hss := statementsPrintable_iff hc.2 hn.2
      simp only [statementsPrintable, List.all_cons, Bool.and_eq_true, hc.1.2, hs, hss]
      tauto
end

/-- A canonical tree can be written exactly if all its nodes are stable. -/
theorem Template.isPrintable_iff {t : Template} (h : Everywhere Node.isCanonical t.nodes) :
    t.isPrintable = true ↔ Everywhere Node.isStable t.nodes := by
  obtain ⟨hc, hn⟩ := Everywhere.cons_iff.mp h
  simp only [Node.isCanonical, Kind.isCanonical, Bool.and_eq_true] at hc
  rw [isPrintable, hc.1, Bool.true_and, statementsPrintable_iff hc.2 hn, nodes,
    Everywhere.cons_iff]
  rfl

/-! ## Whole sources -/

/-- What can be written denotes itself, apart from where its nodes stand. -/
theorem Template.ofChars_source {t : Template} (h : t.isPrintable = true) :
    ∃ t', Template.ofChars t.source = .ok t' ∧ t'.eraseSpans = t.eraseSpans := by
  rw [isPrintable, Bool.and_eq_true, List.isEmpty_iff] at h
  obtain ⟨body, d, hread, hd, he⟩ := statementsReadBack t.body h.2 ⟨.inl rfl, by simp⟩
    (Cursor.ofChars t.source) (List.append_nil _).symm
  refine ⟨⟨body, []⟩, ofChars_eq_ok_iff.mpr ⟨rfl, d, hread, hd⟩, ?_⟩
  rw [eraseSpans, eraseSpans, he, h.1]

/-- A template that was read survives being printed and read again exactly if all its nodes are
stable. -/
theorem Template.parse_print_iff_isStable {source filename : String} {t : Template}
    (h : Template.parse source filename = .ok t) (filename' : String) :
    (∃ t', Template.parse t.print filename' = .ok t' ∧ t'.eraseSpans = t.eraseSpans) ↔
      ∀ n ∈ t.nodes, n.isStable = true := by
  rw [← Everywhere, ← isPrintable_iff (allCanonical (ofChars_of_parse h))]
  constructor
  · rintro ⟨t', ht', he⟩
    have hread := ofChars_of_parse ht'
    rw [print_eq_of_erase he.symm, print, String.toList_ofList] at hread
    rw [isPrintable_eq_of_erase he.symm]
    exact isPrintable_of_own hread
  · intro hprintable
    obtain ⟨t', hread, he⟩ := ofChars_source hprintable
    refine ⟨t', ?_, he⟩
    rw [parse, print, String.toList_ofList, hread]

/-- A source in forms that are not printed: other quotes and none, blanks, a chained block. -/
def formsSource : String :=
  "<p a='x y' b=z \x7b\x7bon 'it' n=01.50\x7d\x7d>\x7b\x7b#each  xs as |i|\x7d\x7d" ++
    "\x7b\x7b i \"1\"\x7d\x7d\x7b\x7belse  if a\x7d\x7d1 < 2\x7b\x7b/each\x7d\x7d</p>" ++
    "\x7b\x7b! x \x7d\x7d"

theorem Template.parse_print_iff_isStable_forms :
    ∃ t, Template.parse formsSource "forms.hbs" = .ok t ∧
      ∃ t', Template.parse t.print "forms.hbs" = .ok t' ∧ t'.eraseSpans = t.eraseSpans := by
  have hread : (Template.parse formsSource "forms.hbs").toOption.map
      (fun t => t.nodes.all Node.isStable) = some true := by
    decide +kernel
  obtain ⟨t, ht, hstable⟩ := exists_of_parse hread
  exact ⟨t, ht, (parse_print_iff_isStable ht _).mpr (List.all_eq_true.mp hstable)⟩

/-- A double quote in an attribute is printed between double quotes, which does not read back. -/
theorem Template.parse_print_quote :
    ∃ t, Template.parse "<a b='\"'></a>" "quote.hbs" = .ok t ∧
      ¬ ∃ t', Template.parse t.print "quote.hbs" = .ok t' ∧ t'.eraseSpans = t.eraseSpans := by
  have hread : (Template.parse "<a b='\"'></a>" "quote.hbs").toOption.map
      (fun t => (Template.parse t.print "quote.hbs").toOption.isSome) = some false := by
    decide +kernel
  obtain ⟨t, ht, hprinted⟩ := exists_of_parse hread
  refine ⟨t, ht, ?_⟩
  rintro ⟨t', ht', -⟩
  rw [ht'] at hprinted
  cases hprinted

end Bracework
