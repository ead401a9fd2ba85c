/-
Validity — what the checker can find in a tree that was read.

Being canonical is most of being valid: the names that the reader takes are all
names to the checker.  Two rules the reader does not see to.  It takes any run
of characters of a path for a path, so two dots may meet or stand at an end, and
it takes any expression for the callee of a block.
-/
import Bracework.Proofs.Canonical.Reading
import Bracework.Proofs.Validity.Rules

namespace Bracework

/-! ## Names -/

theorem hasSpace_eq_false {text : String} {test : Char → Bool}
    (ht : ∀ x, test x = true → CharClass.isSpace x = false)
    (h : ∀ x ∈ text.toList, test x = true) : hasSpace text = false := by
  rw [hasSpace, List.any_eq_false]
  intro x hx
  rw [ht x (h x hx)]
  decide

namespace Token

theorem isSpace_of_isTagChar {c : Char} (h : isTagChar c = true) : CharClass.isSpace c = false := by
  cases hs : CharClass.isSpace c with
  | false => rfl
  | true =>
      have hc := CharClass.isAlphanumeric_of_isSpace hs
      simp only [isTagChar, hc, Bool.false_or, Bool.or_eq_true, beq_iff_eq] at h
      rcases h with (((rfl | rfl) | rfl) | rfl) | rfl <;> exact absurd hs (by decide)

theorem isSpace_of_isNameChar {c : Char} (h : isNameChar c = true) :
    CharClass.isSpace c = false :=
  isSpace_of_isPathChar (isPathChar_of_isNameChar h)

end Token

theorem isBlockParam_of_isArgumentName {name : String} (h : isArgumentName name = true) :
    isBlockParam name = true := by
  obtain ⟨hne, hall⟩ := isArgumentName_iff.mp h
  rw [isBlockParam, hasSpace_eq_false (fun _ => Token.isSpace_of_isNameChar) hall]
  simpa using hne

theorem isTagName_of_isPrintableTag {tag : String} (h : isPrintableTag tag = true) :
    isTagName tag = true := by
  have hall := isTagChar_of_isPrintableTag h
  obtain ⟨x, xs, htag, hx, -⟩ := isPrintableTag_iff.mp h
  rw [isTagName, hasSpace_eq_false (fun _ => Token.isSpace_of_isTagChar) hall, htag]
  simp [isAlphabetic_of_isAlpha hx]

theorem Call.namesArguments_of_isCanonical {c : Call} (h : c.isCanonical = true) :
    c.namesArguments = true := by
  rw [isCanonical, Bool.and_eq_true] at h
  refine List.all_eq_true.mpr fun argument ha => ?_
  have hname := (Bool.and_eq_true_iff.mp (List.all_eq_true.mp h.2 argument ha)).1
  simpa using (isArgumentName_iff.mp hname).1

theorem AttributeValue.isInhabited_of_isCanonical {v : AttributeValue} (h : v.isCanonical = true) :
    v.isInhabited = true := by
  cases v with
  | text t => rfl
  | mustache m => rfl
  | concat parts =>
      rw [isCanonical, Bool.and_eq_true] at h
      cases parts with
      | nil => exact absurd h.1 (by decide)
      | cons part parts => rfl

/-- A path that can be written is valid if no segment of it is empty. -/
theorem Path.isValid_of_isPrintable {p : Path} (h : p.isPrintable = true) :
    p.isValid = p.segments.all (!·.isEmpty) := by
  obtain ⟨⟨hne, hall⟩, -⟩ := isPrintable_iff.mp h
  rw [isValid, hasSpace_eq_false (fun _ => Token.isSpace_of_isPathChar) hall]
  have hempty : p.text.isEmpty = false := by simpa using hne
  rw [hempty]
  rfl

/-! ## Nodes -/

/-- What the reader leaves to the checker: the segments of a path, and the callee of a block. -/
def Kind.isConnected : (k : Kind) → k.Node → Bool
  | .path, p => p.segments.all (!·.isEmpty)
  | .blockStatement, b => b.call.calleeText?.isSome
  | _, _ => true

/-- Whether what the reader leaves to the checker is in order at a node. -/
def Node.isConnected (n : Node) : Bool := n.kind.isConnected n.value

/-- A canonical node is valid if what the reader leaves to the checker is in order. -/
theorem Node.isValid_of_isCanonical {n : Node} (h : n.isCanonical = true) :
    n.isValid = n.isConnected := by
  obtain ⟨kind, value⟩ := n
  cases kind with
  | template =>
      have hparams := (Bool.and_eq_true_iff.mp h).1
      show value.params.all isBlockParam = true
      rw [List.isEmpty_iff.mp hparams]
      rfl
  | block =>
      have hparams := (Bool.and_eq_true_iff.mp h).1
      exact List.all_eq_true.mpr fun name hname =>
        isBlockParam_of_isArgumentName (List.all_eq_true.mp hparams name hname)
  | element =>
      obtain ⟨⟨htag, hwhole⟩, -⟩ :
          (isPrintableTag value.tag = true ∧ _) ∧ bodyCanonical false value.children = true := by
        simpa only [isCanonical, Kind.isCanonical, Bool.and_eq_true] using h
      show (isTagName value.tag && !(value.isVoid && !value.children.isEmpty)) = true
      rw [isTagName_of_isPrintableTag htag]
      cases hvoid : value.isVoid with
      | false => rfl
      | true => simpa [hvoid] using hwhole
  | attr =>
      obtain ⟨⟨hname, -⟩, hvalue⟩ :
          (isAttributeName value.name = true ∧ _) ∧ value.value.isCanonical = true := by
        simpa only [isCanonical, Kind.isCanonical, Attribute.isCanonical, Bool.and_eq_true] using h
      exact Bool.and_eq_true_iff.mpr
        ⟨hname, AttributeValue.isInhabited_of_isCanonical hvalue⟩
  | text => rfl
  | mustache => exact Call.namesArguments_of_isCanonical h
  | blockStatement =>
      have hcall := (Bool.and_eq_true_iff.mp h).1
      show (value.call.calleeText?.isSome && value.call.namesArguments) = _
      rw [Call.namesArguments_of_isCanonical hcall, Bool.and_true]
      rfl
  | comment => rfl
  | path => exact Path.isValid_of_isPrintable h
  | subExpression => exact Call.namesArguments_of_isCanonical h

/-- A template that was read passes the check exactly if no path of it has an empty segment and
every block of it is a block of a path. -/
theorem Template.validate_of_parse {source filename : String} {t : Template}
    (h : Template.parse source filename = .ok t) :
    t.validate = .ok () ↔ ∀ n ∈ t.nodes, n.isConnected = true := by
  have hcanonical := allCanonical (ofChars_of_parse h)
  rw [validate_eq_ok]
  exact forall₂_congr fun n hn => by rw [Node.isValid_of_isCanonical (hcanonical n hn)]

/-- A source with paths of several segments and a block of a path. -/
def pathsSource : String :=
  "\x7b\x7b#each this.items as |i|\x7d\x7d<b>\x7b\x7bi.a.b (f @x.y)\x7d\x7d</b>" ++
    "\x7b\x7b/each\x7d\x7d"

theorem Template.validate_of_parse_paths :
    ∃ t, Template.parse pathsSource "paths.hbs" = .ok t ∧ t.validate = .ok () ∧
      (t.validate = .ok () ↔ ∀ n ∈ t.nodes, n.isConnected = true) := by
  have hvalid : (Template.parse pathsSource "paths.hbs").toOption.map Template.validate =
      some (.ok ()) := by decide +kernel
  obtain ⟨t, ht, hv⟩ := exists_of_parse hvalid
  exact ⟨t, ht, hv, validate_of_parse ht⟩

/-- The reader takes a path with an empty segment, which the checker does not. -/
theorem Template.validate_doubleDot :
    ∃ t, Template.parse "\x7b\x7ba..b\x7d\x7d" "dots.hbs" = .ok t ∧
      t.validate = .error (.path "a..b") := by
  have hbreach : (Template.parse "\x7b\x7ba..b\x7d\x7d" "dots.hbs").toOption.map
      Template.validate = some (.error (.path "a..b")) := by decide +kernel
  exact exists_of_parse hbreach

end Bracework
