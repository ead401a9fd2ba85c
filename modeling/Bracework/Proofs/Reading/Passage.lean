/-
Reading — a derivation leads from one place of a source to a later one.

What lies between the two ends of a derivation is a text: the rest of the first
is that text and the rest of the second, and the offsets differ by its bytes.
Places in this relation are places of the same source, so a span from one to the
other falls between characters at both its ends.
-/
import Bracework.Proofs.Reading.Statements

namespace Bracework

namespace Cursor

/-- A place is behind another, with a text between them. -/
def Passes (c : Cursor) (text : List Char) (d : Cursor) : Prop :=
  c.rest = text ++ d.rest ∧ d.offset = c.offset + utf8Length text

/-- A place is the same as another or behind it. -/
def Reaches (c d : Cursor) : Prop := ∃ text, c.Passes text d

theorem Passes.append {c d e : Cursor} {text behind : List Char} :
    c.Passes text d → d.Passes behind e → c.Passes (text ++ behind) e
  | ⟨hr, ho⟩, ⟨hr', ho'⟩ =>
      ⟨by rw [hr, hr', List.append_assoc], by rw [ho', ho, utf8Length_append, Nat.add_assoc]⟩

theorem Reaches.refl (c : Cursor) : c.Reaches c := ⟨[], rfl, rfl⟩

theorem Reaches.trans {c d e : Cursor} : c.Reaches d → d.Reaches e → c.Reaches e
  | ⟨_, h⟩, ⟨_, h'⟩ => ⟨_, h.append h'⟩

theorem Reaches.offset_le {c d : Cursor} : c.Reaches d → c.offset ≤ d.offset
  | ⟨_, _, h⟩ => h ▸ Nat.le_add_right ..

theorem passes_advance {c : Cursor} {text : List Char} (h : text <+: c.rest) :
    c.Passes text (c.advance text.length) := by
  have htake := List.prefix_iff_eq_take.mp h
  exact ⟨(List.prefix_iff_eq_append.mp h).symm, by rw [advance, ← htake]⟩

theorem passes_of_startsWith {c : Cursor} {token : List Char} (h : c.startsWith token = true) :
    c.Passes token (c.advance token.length) :=
  passes_advance (startsWith_iff.mp h)

theorem reaches_advance (c : Cursor) (count : Nat) : c.Reaches (c.advance count) :=
  ⟨c.rest.take count, (List.take_append_drop count c.rest).symm, rfl⟩

theorem passes_skip (c : Cursor) (test : Char → Bool) :
    c.Passes (c.taken test) (c.skip test) :=
  ⟨List.takeWhile_append_dropWhile.symm, rfl⟩

theorem reaches_skip (c : Cursor) (test : Char → Bool) : c.Reaches (c.skip test) :=
  ⟨_, c.passes_skip test⟩

theorem reaches_skipSpace (c : Cursor) : c.Reaches c.skipSpace := c.reaches_skip _

end Cursor

namespace Reading

open Cursor

/-! ## Expressions and calls -/

mutual
theorem ReadsExpression.reaches {c d : Cursor} {e : Expression} :
    ReadsExpression c e d → c.Reaches d
  | .sub (c := c) (d := d) _ hi _ =>
      (c.reaches_advance 1).trans <| (reaches_skipSpace _).trans <| hi.reaches.trans <|
        d.reaches_skipSpace.trans (reaches_advance ..)
  | @ReadsExpression.string _ quote _ text _ hc _ ht =>
      ⟨quote :: (text ++ [quote]), by rw [hc, append_of_splitAtFirst? ht]; simp, by
        simp [utf8Length]
        omega⟩
  | .numeral hc _ _ =>
      ⟨_ :: _, by rw [hc, List.cons_append, List.takeWhile_append_dropWhile], rfl⟩
  | .word _ _ _ => reaches_skip ..
theorem ReadsCall.reaches {c d : Cursor} {call : Call} : ReadsCall c call d → c.Reaches d
  | .call _ he ha => he.reaches.trans ha.reaches
theorem ReadsArguments.reaches {c d : Cursor} {named : Bool} {params : List Expression}
    {hash : List (String × Expression)} : ReadsArguments c named params hash d → c.Reaches d
  | .done _ => c.reaches_skipSpace
  | .named _ _ he ha =>
      c.reaches_skipSpace.trans <| (reaches_advance ..).trans <| (reaches_skipSpace _).trans <|
        he.reaches.trans ha.reaches
  | .positional _ _ he ha => c.reaches_skipSpace.trans <| he.reaches.trans ha.reaches
end

/-- Behind named arguments there are no positional ones. -/
theorem ReadsArguments.params_eq_nil {c d : Cursor} {named : Bool} {params : List Expression}
    {hash : List (String × Expression)} (h : ReadsArguments c named params hash d)
    (hnamed : named = true) : params = [] := by
  cases h with
  | done _ => rfl
  | named _ _ _ ha => exact ha.params_eq_nil rfl
  | positional _ _ _ _ => cases hnamed
termination_by hash.length

/-! ## Mustaches and block heads -/

theorem ReadsMustache.reaches {c d : Cursor} {m : Mustache} : ReadsMustache c m d → c.Reaches d
  | .mustache _ _ hc _ =>
      (reaches_advance ..).trans <| (reaches_skipSpace _).trans <| hc.reaches.trans <|
        (reaches_skipSpace _).trans (reaches_advance ..)

theorem ReadsNames.reaches {c d : Cursor} {names : List String} (h : ReadsNames c names d) :
    c.Reaches d := by
  induction h with
  | @bar c _ => exact c.reaches_skipSpace.trans (reaches_advance ..)
  | @name c _ _ _ _ _ ih => exact c.reaches_skipSpace.trans ((reaches_skip ..).trans ih)

theorem ReadsBlockParams.reaches {c d : Cursor} {names : List String} :
    ReadsBlockParams c names d → c.Reaches d
  | .some _ _ hn =>
      (reaches_advance ..).trans <| (reaches_skipSpace _).trans <| (reaches_advance ..).trans <|
        hn.reaches.trans (reaches_skipSpace _)
  | .none _ => .refl c

theorem ReadsBlockHead.reaches {c d : Cursor} {start : Nat} {head : BlockHead} :
    ReadsBlockHead c start head d → c.Reaches d
  | .head hc hp => hc.reaches.trans <| (reaches_skipSpace _).trans hp.reaches

/-! ## Opening tags -/

theorem ReadsParts.reaches {quote : Char} {c d : Cursor} {pieces : List AttributePart}
    (h : ReadsParts quote c pieces d) : c.Reaches d := by
  induction h with
  | close _ => exact (reaches_advance ..).trans (reaches_advance ..)
  | mustache _ _ hm _ ih => exact (reaches_advance ..).trans (hm.reaches.trans ih)

theorem ReadsValue.reaches {c d : Cursor} {v : AttributeValue} : ReadsValue c v d → c.Reaches d
  | .mustache _ hm => hm.reaches
  | .quoted _ _ _ hp => (reaches_advance ..).trans hp.reaches
  | .bare _ _ => reaches_skip ..

theorem ReadsAttributeTail.reaches {c d : Cursor} {v : AttributeValue} :
    ReadsAttributeTail c v d → c.Reaches d
  | .value _ hv => (reaches_advance ..).trans <| (reaches_skipSpace _).trans hv.reaches
  | .empty _ => .refl c

theorem reaches_behindAttributeName (c : Cursor) : c.Reaches (behindAttributeName c) :=
  (reaches_skip ..).trans (reaches_skipSpace _)

theorem ReadsAttribute.reaches {c d : Cursor} {a : Attribute} : ReadsAttribute c a d → c.Reaches d
  | .attr _ ht => (reaches_behindAttributeName c).trans ht.reaches

theorem ReadsTagBody.reaches {c d : Cursor} {attributes : List Attribute}
    {modifiers : List Mustache} {selfClosing : Bool}
    (h : ReadsTagBody c attributes modifiers selfClosing d) : c.Reaches d := by
  induction h with
  | @selfClose c _ => exact c.reaches_skipSpace.trans (reaches_advance ..)
  | @close c _ _ => exact c.reaches_skipSpace.trans (reaches_advance ..)
  | @modifier c _ _ _ _ _ _ _ hm _ ih => exact c.reaches_skipSpace.trans (hm.reaches.trans ih)
  | @attr c _ _ _ _ _ _ _ _ _ ha _ ih => exact c.reaches_skipSpace.trans (ha.reaches.trans ih)

theorem ReadsOpeningTag.reaches {c d : Cursor} {tag : OpeningTag} :
    ReadsOpeningTag c tag d → c.Reaches d
  | .tag _ hb => (reaches_advance ..).trans <| (reaches_skip ..).trans hb.reaches

/-! ## Items -/

theorem ReadsComment.reaches {html : Bool} {opening closing : List Char} {c d : Cursor}
    {comment : Comment} : ReadsComment html opening closing c comment d → c.Reaches d
  | .comment _ hs =>
      (reaches_advance ..).trans
        ⟨_, append_of_splitAtFirst? hs, by rw [utf8Length_append, Nat.add_assoc]⟩

theorem ReadsItem.reaches {c d : Cursor} {i : Item} (h : ReadsItem c i d) : c.Reaches d := by
  cases h with
  | closingTag _ hd _ he =>
      subst hd he
      exact (reaches_advance ..).trans <| (reaches_skip ..).trans <|
        (reaches_skipSpace _).trans (reaches_advance ..)
  | closingBlock _ hd _ he =>
      subst hd he
      exact (reaches_advance ..).trans <| (reaches_skipSpace _).trans <| (reaches_skip ..).trans <|
        (reaches_skipSpace _).trans (reaches_advance ..)
  | bareElse _ _ =>
      exact (reaches_advance ..).trans <| (reaches_skipSpace _).trans (reaches_advance ..)
  | chainedElse _ _ hh _ =>
      exact (reaches_advance ..).trans <| (reaches_skipSpace _).trans <|
        hh.reaches.trans (reaches_advance ..)
  | longRemark _ hc => exact hc.reaches
  | remark _ hc => exact hc.reaches
  | openingBlock _ hh _ =>
      exact (reaches_advance ..).trans <| (reaches_skipSpace _).trans <|
        hh.reaches.trans (reaches_advance ..)
  | mustache _ hm => exact hm.reaches
  | comment _ hc => exact hc.reaches
  | openingTag _ ht => exact ht.reaches
  | text _ _ => exact reaches_advance ..

end Reading

/-! ## Statements -/

open Reading

mutual
theorem ReadsStatements.reaches {c d : Cursor} {ss : List Statement} :
    ReadsStatements c ss d → c.Reaches d
  | .nil => .refl c
  | .leaf hi hs => hi.reaches.trans hs.reaches
  | .whole hi _ hs => hi.reaches.trans hs.reaches
  | .element hi _ hc hcl hs =>
      hi.reaches.trans <| hc.reaches.trans <| hcl.reaches.trans hs.reaches
  | .block hi hb hs => hi.reaches.trans <| hb.reaches.trans hs.reaches
theorem ReadsBlock.reaches {name : String} {head : BlockHead} {c d : Cursor}
    {b : BlockStatement} : ReadsBlock name head c b d → c.Reaches d
  | .close hp hcl => hp.reaches.trans hcl.reaches
  | .inverse hp he hv hcl =>
      hp.reaches.trans <| he.reaches.trans <| hv.reaches.trans hcl.reaches
  | .chain hp he hb => hp.reaches.trans <| he.reaches.trans hb.reaches
end

end Bracework
