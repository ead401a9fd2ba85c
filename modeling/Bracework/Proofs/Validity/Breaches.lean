/-
Validity — what a reported breach says about the tree.

A report gives a kind of node and what is wrong, and it does not say where.  There is a
node that it is about: one that a walk visits and that breaks its rule in just the way of
the report, with the very name that the report gives.  The kind is that of the node with
one exception.  An argument without a name is reported for a mustache wherever the call
stands, so if it stands in a block statement or in parentheses there need not be any
mustache that is to blame.
-/
import Bracework.Proofs.Validity.Visited

namespace Bracework

/-! ## What a breach is about -/

/-- The call that a node of a kind has of its own. -/
def Kind.call? : (k : Kind) → k.Node → Option Call
  | .mustache, m => some m.call
  | .blockStatement, b => some b.call
  | .subExpression, s => some s.call
  | _, _ => none

/-- The call that a node has of its own. -/
def Node.call? (n : Node) : Option Call := n.kind.call? n.value

/-- A node breaks the rule of its kind in the way of a breach. -/
inductive Node.Breaks : Node → Breach → Prop
  | templateParam {t : Template} {param : String} :
      param ∈ t.params → ¬ (param ≠ "" ∧ Unbroken param) →
      Breaks ⟨.template, t⟩ (.blockParam .template param)
  | blockParam {b : Block} {param : String} :
      param ∈ b.params → ¬ (param ≠ "" ∧ Unbroken param) →
      Breaks ⟨.block, b⟩ (.blockParam .block param)
  | tagName {e : Element} :
      ¬ ((∃ c ∈ e.tag.toList.head?, CharClass.isAlphabetic c = true ∨ c = '@' ∨ c = ':') ∧
        Unbroken e.tag) →
      Breaks ⟨.element, e⟩ (.tagName e.tag)
  | voidWithChildren {e : Element} :
      ¬ (e.tag ∈ Element.voidTags → e.children = []) →
      Breaks ⟨.element, e⟩ (.voidWithChildren e.tag)
  | attributeName {a : Attribute} :
      ¬ (a.name ≠ "" ∧ Unbroken a.name ∧ ∀ c ∈ a.name.toList, c ∉ ['=', '>', '"', '\'', '/']) →
      Breaks ⟨.attr, a⟩ (.attributeName a.name)
  | emptyConcat {a : Attribute} :
      a.value = .concat [] → Breaks ⟨.attr, a⟩ (.emptyConcat a.name)
  | calleeNoPath {b : BlockStatement} :
      (¬ ∃ p, b.call.callee = .path p) → Breaks ⟨.blockStatement, b⟩ .calleeNoPath
  | emptyArgumentName {n : Node} {c : Call} :
      n.call? = some c → ¬ c.ArgumentsNamed → Breaks n .emptyArgumentName
  | path {p : Path} :
      ¬ (p.text ≠ "" ∧ Unbroken p.text ∧ [] ∉ p.text.toList.splitOn '.') →
      Breaks ⟨.path, p⟩ (.path p.text)

namespace Node.Breaks

variable {n : Node} {b : Breach}

/-- What breaks a rule in some way does not keep it. -/
theorem not_keepsRule (h : n.Breaks b) : ¬ n.KeepsRule := by
  cases h with
  | templateParam hmem hparam | blockParam hmem hparam => exact fun hk => hparam (hk _ hmem)
  | tagName htag => exact fun hk => htag ⟨hk.1, hk.2.1⟩
  | voidWithChildren hvoid => exact fun hk => hvoid hk.2.2
  | attributeName hname => exact fun hk => hname ⟨hk.1, hk.2.1, hk.2.2.1⟩
  | emptyConcat hvalue => exact fun hk => hk.2.2.2 hvalue
  | calleeNoPath hcallee => exact fun hk => hcallee hk.1
  | path hpath => exact fun hk => hpath hk
  | emptyArgumentName hcall hnamed =>
      obtain ⟨kind, value⟩ := n
      cases kind with
      | mustache | subExpression =>
          obtain rfl := Option.some.inj hcall
          exact fun hk => hnamed hk
      | blockStatement =>
          obtain rfl := Option.some.inj hcall
          exact fun hk => hnamed hk.2
      | _ => cases hcall

/-- The kind of a report is that of the node, unless an argument has no name. -/
theorem kind_eq (h : n.Breaks b) (hb : b ≠ .emptyArgumentName) : n.kind = b.kind := by
  cases h with
  | emptyArgumentName _ _ => exact absurd rfl hb
  | _ => rfl

end Node.Breaks

/-- Some node of a list breaks its rule in the way of a breach. -/
def Blames (b : Breach) (nodes : List Node) : Prop := ∃ n ∈ nodes, n.Breaks b

namespace Blames

variable {b : Breach} {n : Node} {nodes behind : List Node}

theorem mono (h : Blames b nodes) (hsub : nodes ⊆ behind) : Blames b behind := by
  obtain ⟨n, hn, hbreaks⟩ := h
  exact ⟨n, hsub hn, hbreaks⟩

theorem head (h : n.Breaks b) : Blames b (n :: nodes) := ⟨n, List.mem_cons_self, h⟩

theorem tail (h : Blames b nodes) : Blames b (n :: nodes) := h.mono (List.subset_cons_self n nodes)

theorem left (h : Blames b nodes) : Blames b (nodes ++ behind) :=
  h.mono (List.subset_append_left nodes behind)

theorem right (h : Blames b behind) : Blames b (nodes ++ behind) :=
  h.mono (List.subset_append_right nodes behind)

end Blames

/-! ## Checks that fail -/

namespace Check

theorem bind_eq_error {x : Check} {y : Unit → Check} {b : Breach} :
    (x >>= y) = .error b ↔ x = .error b ∨ x = .ok () ∧ y () = .error b := by
  cases x with
  | ok _ => exact ⟨fun h => .inr ⟨rfl, h⟩, fun h => (h.resolve_left nofun).2⟩
  | error _ => exact ⟨.inl, fun h => h.resolve_right fun h => nomatch h.1⟩

theorem demand_eq_error {condition : Bool} {otherwise b : Breach} :
    demand condition otherwise = .error b ↔ ¬ condition = true ∧ otherwise = b := by
  cases condition <;> simp [demand]

/-- A check of each of several things fails for a node of one of them. -/
theorem blames_of_forM {α : Type} {check : α → Check} {nodes : α → List Node} {b : Breach}
    (h : ∀ a, check a = .error b → Blames b (nodes a)) {as : List α}
    (has : as.forM check = .error b) : Blames b (as.flatMap nodes) := by
  induction as with
  | nil => cases has
  | cons a as ih =>
      rw [List.flatMap_cons]
      rcases bind_eq_error.mp has with ha | ⟨-, has⟩
      · exact (h a ha).left
      · exact (ih has).right

theorem blockParam_of_error {kind : Kind} {params : List String} {b : Breach}
    (h : checkBlockParams kind params = .error b) :
    ∃ param ∈ params, ¬ (param ≠ "" ∧ Unbroken param) ∧ b = .blockParam kind param := by
  rw [checkBlockParams] at h
  split at h
  case h_1 param hparam =>
    refine ⟨param, List.mem_of_find?_eq_some hparam, fun hkeeps => ?_, (Except.error.inj h).symm⟩
    have hnone := List.find?_some hparam
    rw [isBlockParam_iff.mpr hkeeps] at hnone
    cases hnone
  case h_2 => cases h

end Check

/-! ## Expressions and calls -/

mutual
theorem Expression.blames_of_check {b : Breach} : (e : Expression) → e.check = .error b →
    Blames b e.nodes
  | .path p, h => by
      obtain ⟨hvalid, rfl⟩ := Check.demand_eq_error.mp h
      exact .head (.path fun hkeeps => hvalid (Path.isValid_iff.mpr hkeeps))
  | .literal _, h => nomatch h
  | .sub c s, h => Call.blames_of_check c ⟨.subExpression, ⟨c, s⟩⟩ rfl h
/-- A call is checked for the node that has it. -/
theorem Call.blames_of_check {b : Breach} : (c : Call) → (owner : Node) → owner.call? = some c →
    c.check = .error b → Blames b (owner :: c.nodes)
  | ⟨callee, params, hash⟩, owner, ho, h => by
      rcases Check.bind_eq_error.mp h with hcallee | ⟨-, h⟩
      · exact (Expression.blames_of_check callee hcallee).left.left.tail
      rcases Check.bind_eq_error.mp h with hparams | ⟨-, hhash⟩
      · exact (blames_of_checkParams params hparams).right.left.tail
      rcases blames_of_checkHash hash hhash with ⟨rfl, hnamed⟩ | hvalue
      · exact .head (.emptyArgumentName ho hnamed)
      · exact hvalue.right.tail
theorem blames_of_checkParams {b : Breach} : (es : List Expression) → checkParams es = .error b →
    Blames b (paramsNodes es)
  | [], h => nomatch h
  | e :: es, h => by
      rcases Check.bind_eq_error.mp h with he | ⟨-, hes⟩
      · exact (Expression.blames_of_check e he).left
      · exact (blames_of_checkParams es hes).right
theorem blames_of_checkHash {b : Breach} : (hash : List (String × Expression)) →
    checkHash hash = .error b →
      b = .emptyArgumentName ∧ ¬ (∀ argument ∈ hash, argument.1 ≠ "") ∨ Blames b (hashNodes hash)
  | [], h => nomatch h
  | (key, e) :: rest, h => by
      rcases Check.bind_eq_error.mp h with hkey | ⟨-, h⟩
      · obtain ⟨hempty, rfl⟩ := Check.demand_eq_error.mp hkey
        refine .inl ⟨rfl, fun hnamed => ?_⟩
        have hne : key ≠ "" := hnamed (key, e) List.mem_cons_self
        exact hempty (by rwa [Bool.not_eq_true', String.isEmpty_eq_false_iff])
      rcases Check.bind_eq_error.mp h with he | ⟨-, hrest⟩
      · exact .inr (Expression.blames_of_check e he).left
      rcases blames_of_checkHash rest hrest with ⟨hb, hnamed⟩ | hrest
      · refine .inl ⟨hb, fun hall => hnamed fun argument hmem => ?_⟩
        exact hall argument (List.mem_cons_of_mem _ hmem)
      · exact .inr hrest.right
end

/-! ## Attributes -/

theorem Mustache.blames_of_check {b : Breach} (m : Mustache) (h : m.call.check = .error b) :
    Blames b m.nodes :=
  m.call.blames_of_check ⟨.mustache, m⟩ rfl h

theorem AttributePart.blames_of_check {b : Breach} (p : AttributePart) (h : p.check = .error b) :
    Blames b p.nodes := by
  cases p with
  | text t => cases h
  | mustache m => exact m.blames_of_check h

theorem Attribute.blames_of_check {b : Breach} (a : Attribute) (h : a.check = .error b) :
    Blames b a.nodes := by
  obtain ⟨name, value, span⟩ := a
  rcases Check.bind_eq_error.mp h with h | ⟨-, h⟩
  · obtain ⟨hname, rfl⟩ := Check.demand_eq_error.mp h
    exact .head (.attributeName (a := ⟨name, value, span⟩) fun hkeeps =>
      hname (isAttributeName_iff_unbroken.mpr hkeeps))
  cases value with
  | text t => cases h
  | mustache m => exact (m.blames_of_check h).tail
  | concat parts =>
      rcases Check.bind_eq_error.mp h with h | ⟨-, h⟩
      · obtain ⟨hempty, rfl⟩ := Check.demand_eq_error.mp h
        exact .head (.emptyConcat (a := ⟨name, .concat parts, span⟩)
          (not_not.mp fun hne => hempty (AttributeValue.isInhabited_iff.mpr hne)))
      · exact (Check.blames_of_forM AttributePart.blames_of_check h).tail

/-! ## The tree -/

mutual
theorem Statement.blames_of_check {b : Breach} : (s : Statement) → s.check = .error b →
    Blames b s.nodes
  | .element e, h => Element.blames_of_check e h
  | .text _, h => nomatch h
  | .mustache m, h => m.blames_of_check h
  | .block x, h => BlockStatement.blames_of_check x h
  | .comment _, h => nomatch h
theorem Element.blames_of_check {b : Breach} : (e : Element) → e.check = .error b → Blames b e.nodes
  | ⟨tag, attributes, modifiers, children, selfClosing, span⟩, h => by
      rcases Check.bind_eq_error.mp h with h | ⟨-, h⟩
      · obtain ⟨htag, rfl⟩ := Check.demand_eq_error.mp h
        exact .head (.tagName (e := ⟨tag, attributes, modifiers, children, selfClosing, span⟩)
          fun hkeeps => htag (isTagName_iff.mpr hkeeps))
      rcases Check.bind_eq_error.mp h with h | ⟨-, h⟩
      · obtain ⟨hwhole, rfl⟩ := Check.demand_eq_error.mp h
        exact .head (.voidWithChildren
          (e := ⟨tag, attributes, modifiers, children, selfClosing, span⟩)
          fun hkeeps => hwhole (Element.isWhole_iff.mpr hkeeps))
      rcases Check.bind_eq_error.mp h with hattributes | ⟨-, h⟩
      · exact (Check.blames_of_forM Attribute.blames_of_check hattributes).left.left.tail
      rcases Check.bind_eq_error.mp h with hmodifiers | ⟨-, hchildren⟩
      · exact (Check.blames_of_forM Mustache.blames_of_check hmodifiers).right.left.tail
      · exact (blames_of_checkStatements children hchildren).right.tail
theorem BlockStatement.blames_of_check {b : Breach} : (x : BlockStatement) → x.check = .error b →
    Blames b x.nodes
  | ⟨call, program, inverse, span⟩, h => by
      rcases Check.bind_eq_error.mp h with h | ⟨-, h⟩
      · obtain ⟨hcallee, rfl⟩ := Check.demand_eq_error.mp h
        exact .head (.calleeNoPath fun hpath => hcallee (Call.calleeText?_isSome_iff.mpr hpath))
      rcases Check.bind_eq_error.mp h with hcall | ⟨-, h⟩
      · have howner := call.blames_of_check
          ⟨.blockStatement, ⟨call, program, inverse, span⟩⟩ rfl hcall
        rw [BlockStatement.nodes, List.append_assoc, ← List.cons_append]
        exact howner.left
      rcases Check.bind_eq_error.mp h with hprogram | ⟨-, hinverse⟩
      · exact (Block.blames_of_check program hprogram).right.left.tail
      · exact (blames_of_checkInverse inverse hinverse).right.tail
theorem blames_of_checkInverse {b : Breach} : (inverse : Option Block) →
    checkInverse inverse = .error b → Blames b (inverseNodes inverse)
  | none, h => nomatch h
  | some x, h => Block.blames_of_check x h
theorem Block.blames_of_check {b : Breach} : (x : Block) → x.check = .error b → Blames b x.nodes
  | ⟨body, params⟩, h => by
      rcases Check.bind_eq_error.mp h with hparams | ⟨-, hbody⟩
      · obtain ⟨param, hmem, hparam, rfl⟩ := Check.blockParam_of_error hparams
        exact .head (.blockParam hmem hparam)
      · exact (blames_of_checkStatements body hbody).tail
theorem blames_of_checkStatements {b : Breach} : (ss : List Statement) →
    checkStatements ss = .error b → Blames b (statementsNodes ss)
  | [], h => nomatch h
  | s :: ss, h => by
      rcases Check.bind_eq_error.mp h with hs | ⟨-, hss⟩
      · exact (Statement.blames_of_check s hs).left
      · exact (blames_of_checkStatements ss hss).right
end

/-- What the checker reports is true of a node of the tree. -/
theorem Template.blames_of_validate {t : Template} {b : Breach} (h : t.validate = .error b) :
    Blames b t.nodes := by
  rcases Check.bind_eq_error.mp h with hparams | ⟨-, hbody⟩
  · obtain ⟨param, hmem, hparam, rfl⟩ := Check.blockParam_of_error hparams
    exact .head (.templateParam hmem hparam)
  · exact (blames_of_checkStatements t.body hbody).tail

/-- Some node that a walk visits breaks its rule in the way that is reported.  There is one of the
reported kind exactly if the report is not that an argument has no name, or it is so in a mustache:
for block statements and calls in parentheses a mustache is reported all the same. -/
theorem Template.breaker_of_validate {t : Template} {b : Breach} (h : t.validate = .error b) :
    (∃ n ∈ t.visited, n.Breaks b ∧ ¬ n.KeepsRule) ∧
    ((∃ n ∈ t.visited, n.kind = b.kind ∧ n.Breaks b) ↔
      (b = .emptyArgumentName →
        ∃ m : Mustache, ⟨.mustache, m⟩ ∈ t.visited ∧ ¬ m.call.ArgumentsNamed)) := by
  rw [visited_eq]
  obtain ⟨n, hn, hbreaks⟩ := blames_of_validate h
  refine ⟨⟨n, hn, hbreaks, hbreaks.not_keepsRule⟩, ?_, fun hnamed => ?_⟩
  · rintro ⟨⟨kind, m⟩, hm, hkind, hbroken⟩ rfl
    obtain rfl : kind = .mustache := hkind
    exact ⟨m, hm, hbroken.not_keepsRule⟩
  · by_cases hb : b = .emptyArgumentName
    · obtain ⟨m, hm, hargument⟩ := hnamed hb
      exact ⟨_, hm, hb ▸ rfl, hb ▸ .emptyArgumentName rfl hargument⟩
    · exact ⟨n, hn, hbreaks.kind_eq hb, hbreaks⟩

/-- A template with a bad path in parentheses, in the inverse of a block. -/
def Template.misspelt : Template where
  body := [.block ⟨⟨.path ⟨"if", .none⟩, [.path ⟨"a", .none⟩], []⟩, ⟨[.text ⟨"t", .none⟩], []⟩,
    some ⟨[.mustache { call := ⟨.path ⟨"f", .none⟩, [],
      [("k", .sub ⟨.path ⟨"b..c", .none⟩, [], []⟩ .none)]⟩ }], []⟩, .none⟩]

theorem Template.breaker_of_validate_misspelt :
    misspelt.validate = .error (.path "b..c") ∧
      (∃ n ∈ misspelt.visited, n.Breaks (.path "b..c") ∧ ¬ n.KeepsRule) ∧
      ∃ n ∈ misspelt.visited, n.kind = .path ∧ n.Breaks (.path "b..c") := by
  have hvalidate : misspelt.validate = .error (.path "b..c") := by decide
  obtain ⟨hbroken, hkind⟩ := breaker_of_validate hvalidate
  exact ⟨hvalidate, hbroken, hkind.mpr nofun⟩

/-- A template with a block that has an argument without a name. -/
def Template.unnamed : Template where
  body := [.block ⟨⟨.path ⟨"if", .none⟩, [.path ⟨"a", .none⟩], [("", .path ⟨"b", .none⟩)]⟩,
    ⟨[.text ⟨"t", .none⟩], []⟩, none, .none⟩]

/-- The argument of a block is reported for a mustache where there is no mustache. -/
theorem Template.validate_unnamed :
    unnamed.validate = .error .emptyArgumentName ∧
      Breach.message .emptyArgumentName = "invalid MustacheStatement: empty named argument" ∧
      ∀ n ∈ unnamed.visited, n.kind ≠ Breach.emptyArgumentName.kind := by
  rw [visited_eq]
  exact ⟨by decide, rfl, by decide⟩

end Bracework
