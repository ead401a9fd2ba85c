/-
Validity — the checker and the walk meet the same nodes.

The checker and the walk are two recursions over the same ten kinds of node, and
neither knows of the other.  A plugin sees what the walk visits, so a place that
only the walk goes to would let a plugin hand on what no check has seen, and a
place that only the checker goes to would be out of a plugin's reach.  There is
neither: a template passes the check exactly if every node that a walk visits
keeps the rule of its kind.  The rules are written out here on texts and
characters, apart from the functions by which the checker applies them.
-/
import Bracework.Proofs.Traversal.DocumentOrder
import Bracework.Proofs.Validity.Rules

namespace Bracework

/-! ## The rules in words -/

/-- No character of a text is blank. -/
def Unbroken (text : String) : Prop := ∀ c ∈ text.toList, CharClass.isSpace c = false

/-- No block parameter is empty or has a blank. -/
def ParamsNamed (params : List String) : Prop := ∀ param ∈ params, param ≠ "" ∧ Unbroken param

/-- No named argument of a call has the empty name. -/
def Call.ArgumentsNamed (c : Call) : Prop := ∀ argument ∈ c.hash, argument.1 ≠ ""

/-- What is asked of a node of a kind, whatever its parts are like. -/
def Kind.Rule : (k : Kind) → k.Node → Prop
  | .template, t => ParamsNamed t.params
  | .block, b => ParamsNamed b.params
  | .element, e =>
      (∃ c ∈ e.tag.toList.head?, CharClass.isAlphabetic c = true ∨ c = '@' ∨ c = ':') ∧
        Unbroken e.tag ∧ (e.tag ∈ Element.voidTags → e.children = [])
  | .attr, a =>
      a.name ≠ "" ∧ Unbroken a.name ∧ (∀ c ∈ a.name.toList, c ∉ ['=', '>', '"', '\'', '/']) ∧
        a.value ≠ .concat []
  | .text, _ => True
  | .mustache, m => m.call.ArgumentsNamed
  | .blockStatement, b => (∃ p, b.call.callee = .path p) ∧ b.call.ArgumentsNamed
  | .comment, _ => True
  | .path, p => p.text ≠ "" ∧ Unbroken p.text ∧ [] ∉ p.text.toList.splitOn '.'
  | .subExpression, s => s.call.ArgumentsNamed

/-- A node keeps the rule of its kind. -/
def Node.KeepsRule (n : Node) : Prop := n.kind.Rule n.value

/-- The nodes of a template in the order in which a walk visits them. -/
def Template.visited (t : Template) : List Node :=
  ((t.visit fun k n => do
    modify (· ++ [⟨k, n⟩])
    return n : StateM (List Node) Template).run []).2

theorem Template.visited_eq (t : Template) : t.visited = t.nodes := by
  have hnoted : t.visited = t.nodes.flatMap fun n => [n] := t.visit_noting fun n => [n]
  rw [hnoted, List.flatMap_singleton']

/-! ## The checker applies the rules -/

theorem hasSpace_eq_false_iff {text : String} : hasSpace text = false ↔ Unbroken text := by
  rw [hasSpace, List.any_eq_false]
  exact forall₂_congr fun c _ => by rw [Bool.not_eq_true]

theorem isBlockParam_iff {param : String} :
    isBlockParam param = true ↔ param ≠ "" ∧ Unbroken param := by
  rw [isBlockParam, Bool.and_eq_true, Bool.not_eq_true', Bool.not_eq_true', hasSpace_eq_false_iff,
    String.isEmpty_eq_false_iff]

theorem isTagName_iff {tag : String} : isTagName tag = true ↔
    (∃ c ∈ tag.toList.head?, CharClass.isAlphabetic c = true ∨ c = '@' ∨ c = ':') ∧
      Unbroken tag := by
  rw [isTagName, Bool.and_eq_true, Bool.not_eq_true', hasSpace_eq_false_iff]
  refine and_congr_left fun _ => ?_
  cases tag.toList with
  | nil => simp
  | cons c cs => simp [or_assoc]

/-- An attribute name may go on with every character that neither is blank nor has a meaning in
a tag. -/
theorem isAttributeName_iff_unbroken {name : String} : isAttributeName name = true ↔
    name ≠ "" ∧ Unbroken name ∧ ∀ c ∈ name.toList, c ∉ ['=', '>', '"', '\'', '/'] := by
  have hchar : ∀ c, Token.endsAttributeName c = false ↔
      CharClass.isSpace c = false ∧ c ∉ ['=', '>', '"', '\'', '/'] := by
    intro c
    simp only [Token.endsAttributeName, Bool.or_eq_false_iff, beq_eq_false_iff_ne, List.mem_cons,
      List.not_mem_nil, or_false, not_or]
    tauto
  rw [isAttributeName, Bool.and_eq_true, Bool.not_eq_true', String.isEmpty_eq_false_iff,
    Bool.not_eq_true', List.any_eq_false, Unbroken, ← forall₂_and]
  refine and_congr_right fun _ => forall₂_congr fun c _ => ?_
  rw [Bool.not_eq_true]
  exact hchar c

/-- The pieces of a text between the occurrences of a character are those of the library. -/
theorem cutAt_eq_splitOn (mark : Char) (cs : List Char) : cutAt mark cs = cs.splitOn mark := by
  induction cs with
  | nil => exact (List.splitOn_nil mark).symm
  | cons c cs ih =>
      rw [cutAt, ih, List.splitOn, List.splitOn, List.splitOnP_cons_eq_if_modifyHead]
      by_cases hc : c = mark
      · rw [if_pos hc, if_pos (beq_iff_eq.mpr hc)]
      · rw [if_neg hc, if_neg fun h => hc (beq_iff_eq.mp h)]
        cases hs : List.splitOnP (· == mark) cs with
        | nil => exact absurd hs (List.splitOnP_ne_nil _ cs)
        | cons piece pieces => rfl

theorem Path.isValid_iff {p : Path} : p.isValid = true ↔
    p.text ≠ "" ∧ Unbroken p.text ∧ [] ∉ p.text.toList.splitOn '.' := by
  have hsegments : (p.segments.all (!·.isEmpty)) = true ↔ [] ∉ p.text.toList.splitOn '.' := by
    rw [segments, cutAt_eq_splitOn, List.all_eq_true]
    constructor
    · intro h hnil
      exact absurd (h [] hnil) (by decide)
    · intro h segment hsegment
      cases segment with
      | nil => exact absurd hsegment h
      | cons c cs => rfl
  rw [isValid, Bool.and_eq_true, Bool.and_eq_true, Bool.not_eq_true', Bool.not_eq_true',
    hasSpace_eq_false_iff, hsegments, String.isEmpty_eq_false_iff, and_assoc]

theorem Call.namesArguments_iff {c : Call} : c.namesArguments = true ↔ c.ArgumentsNamed := by
  rw [namesArguments, List.all_eq_true]
  refine forall₂_congr fun argument _ => ?_
  rw [Bool.not_eq_true', String.isEmpty_eq_false_iff]

theorem paramsNamed_iff {params : List String} :
    params.all isBlockParam = true ↔ ParamsNamed params := by
  rw [List.all_eq_true]
  exact forall₂_congr fun param _ => isBlockParam_iff

theorem Call.calleeText?_isSome_iff {c : Call} :
    c.calleeText?.isSome = true ↔ ∃ p, c.callee = .path p := by
  obtain ⟨callee, params, hash⟩ := c
  cases callee with
  | path p => exact ⟨fun _ => ⟨p, rfl⟩, fun _ => rfl⟩
  | literal l => exact ⟨nofun, fun ⟨_, h⟩ => nomatch h⟩
  | sub c s => exact ⟨nofun, fun ⟨_, h⟩ => nomatch h⟩

theorem AttributeValue.isInhabited_iff {v : AttributeValue} :
    v.isInhabited = true ↔ v ≠ .concat [] := by
  cases v with
  | text t => exact ⟨fun _ => nofun, fun _ => rfl⟩
  | mustache m => exact ⟨fun _ => nofun, fun _ => rfl⟩
  | concat parts =>
      cases parts with
      | nil => exact ⟨nofun, fun h => absurd rfl h⟩
      | cons part parts => exact ⟨fun _ => nofun, fun _ => rfl⟩

theorem Element.isWhole_iff {e : Element} :
    (!(e.isVoid && !e.children.isEmpty)) = true ↔ (e.tag ∈ voidTags → e.children = []) := by
  rw [isVoid, Bool.not_eq_true', ← Bool.not_eq_true, Bool.and_eq_true, List.contains_iff_mem,
    Bool.not_eq_true', ← Bool.not_eq_true, List.isEmpty_iff]
  tauto

/-- The checker finds fault with a node exactly if the node breaks the rule of its kind. -/
theorem Node.isValid_iff (n : Node) : n.isValid = true ↔ n.KeepsRule := by
  obtain ⟨kind, value⟩ := n
  cases kind with
  | template => exact paramsNamed_iff
  | block => exact paramsNamed_iff
  | element =>
      refine Bool.and_eq_true_iff.trans ((and_congr isTagName_iff Element.isWhole_iff).trans ?_)
      exact and_assoc
  | attr =>
      refine Bool.and_eq_true_iff.trans
        ((and_congr isAttributeName_iff_unbroken AttributeValue.isInhabited_iff).trans ?_)
      exact and_assoc.trans (and_congr_right fun _ => and_assoc)
  | text => exact iff_of_true rfl trivial
  | mustache => exact Call.namesArguments_iff
  | blockStatement =>
      exact Bool.and_eq_true_iff.trans
        (and_congr Call.calleeText?_isSome_iff Call.namesArguments_iff)
  | comment => exact iff_of_true rfl trivial
  | path => exact Path.isValid_iff
  | subExpression => exact Call.namesArguments_iff

/-- A template passes the check exactly if every node that a walk visits keeps its rule. -/
theorem Template.validate_iff_visited (t : Template) :
    t.validate = .ok () ↔ ∀ n ∈ t.visited, n.KeepsRule := by
  rw [validate_eq_ok, visited_eq]
  exact forall₂_congr fun n _ => n.isValid_iff

end Bracework
