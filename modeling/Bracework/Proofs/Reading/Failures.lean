/-
Reading — what goes wrong is raised where the reader has got to.

A reader that fails has called its way to a place whose reader gives up by itself.
For the readers up to those of items that is an analysis of each, in the order in
which they call each other.  Every case is one of three: the reader raises the
fault, or one that it calls does, or its next round does.
-/
import Bracework.Proofs.Reading.Rounds

namespace Bracework

open Reading Relation Cursor

/-- A computation in two parts fails when the first does, or when the second does after it. -/
theorem bind_eq_error {ε α β : Type} {x : Except ε α} {f : α → Except ε β} {e : ε} :
    (x >>= f) = .error e ↔ x = .error e ∨ ∃ a, x = .ok a ∧ f a = .error e := by
  cases x with
  | error e' =>
      refine ⟨fun h => .inl (congrArg Except.error (Except.error.inj h)), ?_⟩
      rintro (h | ⟨a, h, -⟩)
      · exact congrArg Except.error (Except.error.inj h)
      · cases h
  | ok a =>
      refine ⟨fun h => .inr ⟨a, rfl, h⟩, ?_⟩
      rintro (h | ⟨a', ha, h⟩)
      · cases h
      · exact Except.ok.inj ha ▸ h

/-- A computation that only makes something of the result of another fails when the other does. -/
theorem bind_ok_eq_error {ε α β : Type} {x : Except ε α} {f : α → β} {e : ε} :
    (x >>= fun a => .ok (f a)) = .error e ↔ x = .error e := by
  rw [bind_eq_error]
  refine ⟨fun h => h.resolve_right ?_, .inl⟩
  rintro ⟨a, -, h⟩
  cases h

/-- A fault is raised at a place or at one that is entered from there. -/
def Fails (p : Place) (e : ParseError) : Prop := ∃ q, ReflTransGen Enters p q ∧ Raises q e

theorem Raises.fails {p : Place} {e : ParseError} (h : Raises p e) : Fails p e := ⟨p, .refl, h⟩

theorem Fails.of_reflTransGen {p q : Place} {e : ParseError} (h : ReflTransGen Enters p q)
    (hq : Fails q e) : Fails p e := by
  obtain ⟨r, hr, hraise⟩ := hq
  exact ⟨r, h.trans hr, hraise⟩

theorem Enters.fails {p q : Place} {e : ParseError} (h : Enters p q) (hq : Fails q e) :
    Fails p e :=
  hq.of_reflTransGen (.single h)

namespace Reading

/-! ## Delimiters -/

theorem fails_of_expect {c : Cursor} {text : List Char} {h : text ≠ []} {e : ParseError}
    (he : c.expect text h = .error e) : Fails ⟨.token text, c⟩ e := by
  unfold Cursor.expect at he
  split at he
  case isTrue => cases he
  case isFalse hs =>
    split at he
    case h_1 hr =>
      obtain rfl := Except.error.inj he
      exact (Raises.endBeforeToken hr).fails
    case h_2 hr =>
      obtain rfl := Except.error.inj he
      exact (Raises.otherThanToken hr (Bool.eq_false_iff.mpr hs)).fails

/-! ## Expressions and calls -/

mutual
theorem fails_of_expression {c : Cursor} {e : ParseError} (h : expression c = .error e) :
    Fails ⟨.expression, c⟩ e := by
  rw [expression] at h
  split at h
  case h_1 hr =>
    obtain rfl := Except.error.inj h
    exact (Raises.noExpression hr).fails
  case h_2 first others hr =>
    split at h
    case isTrue hf =>
      subst hf
      rcases bind_eq_error.mp h with h | ⟨inner, hi, h⟩
      · have hlt : (c.advance 1).skipSpace.left < c.left :=
          Nat.lt_of_le_of_lt (Cursor.left_skipSpace_le _) (left_advance_one hr)
        exact (Enters.sub hr).fails (fails_of_call h)
      · have h := bind_ok_eq_error.mp h
        exact (Enters.subEnd hr (readsCall_of_ok hi)).fails (fails_of_expect h)
    case isFalse hf =>
      split at h
      case isTrue hq =>
        unfold string at h
        split at h
        case h_1 hs =>
          obtain rfl := Except.error.inj h
          exact (Raises.unclosedString hr hq hs).fails
        case h_2 => cases h
      case isFalse hq =>
        split at h
        case isTrue hn =>
          unfold numeral at h
          dsimp only at h
          split at h
          case h_1 hv =>
            obtain rfl := Except.error.inj h
            exact (Raises.badNumber hr hn hv).fails
          case h_2 => cases h
        case isFalse hn =>
          split at h
          case isTrue => cases h
          case isFalse hp =>
            obtain rfl := Except.error.inj h
            have hstart : first ∉ ['(', '"', '\''] := by
              simp only [List.mem_cons, List.not_mem_nil, or_false]
              tauto
            exact (Raises.badStart hr hstart (Bool.eq_false_iff.mpr hn)
              (Bool.eq_false_iff.mpr hp)).fails
termination_by 2 * c.left
decreasing_by omega

theorem fails_of_call {c : Cursor} {start : Nat} {e : ParseError} (h : call c start = .error e) :
    Fails ⟨.call start, c⟩ e := by
  rw [call] at h
  split at h
  case isTrue he =>
    obtain rfl := Except.error.inj h
    exact (Raises.noCallee he).fails
  case isFalse he =>
    have he := Bool.eq_false_iff.mpr he
    rcases bind_eq_error.mp h with h | ⟨callee, hc, h⟩
    · exact (Enters.callee he).fails (fails_of_expression h)
    · have hlt := callee.further
      have h := bind_ok_eq_error.mp h
      exact (Enters.arguments he (readsExpression_of_ok hc)).fails (fails_of_arguments h)
termination_by 2 * c.left + 1
decreasing_by all_goals omega

theorem fails_of_arguments {c : Cursor} {named : Bool} {e : ParseError}
    (h : arguments c named = .error e) : Fails ⟨.arguments named, c⟩ e := by
  have hle : c.skipSpace.left ≤ c.left := Cursor.left_skipSpace_le c
  rw [arguments] at h
  dsimp only at h
  split at h
  case isTrue => cases h
  case isFalse he =>
    have he := Bool.eq_false_iff.mpr he
    split at h
    case h_1 name hk =>
      have hb := left_behindName_le c.skipSpace name
      rcases bind_eq_error.mp h with h | ⟨value, hv, h⟩
      · exact (Enters.named he hk).fails (fails_of_expression h)
      · have hlt := value.further
        have h := bind_ok_eq_error.mp h
        exact (Enters.afterNamed he hk (readsExpression_of_ok hv)).fails (fails_of_arguments h)
    case h_2 hk =>
      split at h
      case isTrue hn =>
        subst hn
        obtain rfl := Except.error.inj h
        exact (Raises.lateParam he hk).fails
      case isFalse hn =>
        obtain rfl : named = false := Bool.eq_false_iff.mpr hn
        rcases bind_eq_error.mp h with h | ⟨value, hv, h⟩
        · exact (Enters.positional he hk).fails (fails_of_expression h)
        · have hlt := value.further
          have h := bind_ok_eq_error.mp h
          exact (Enters.afterPositional he hk (readsExpression_of_ok hv)).fails
            (fails_of_arguments h)
termination_by 2 * c.left + 1
decreasing_by all_goals omega
end

/-! ## Mustaches and heads of blocks -/

theorem fails_of_mustacheBetween {c : Cursor} (trusting : Bool)
    {ho : Mustache.opening trusting ≠ []} {hc : Mustache.closing trusting ≠ []} {e : ParseError}
    (ht : c.startsWith Token.trustingOpen = trusting)
    (h : mustacheBetween c trusting (Mustache.opening trusting) (Mustache.closing trusting) ho hc =
      .error e) : Fails ⟨.mustache, c⟩ e := by
  rcases bind_eq_error.mp h with h | ⟨⟨_, behind, _⟩, h1, h⟩
  · exact (Enters.mustacheStart ht).fails (fails_of_expect h)
  · obtain ⟨hopen, rfl⟩ := Cursor.startsWith_of_expect h1
    rcases bind_eq_error.mp h with h | ⟨inner, h2, h⟩
    · exact (Enters.mustacheCall ht hopen).fails (fails_of_call h)
    · have h := bind_ok_eq_error.mp h
      exact (Enters.mustacheEnd ht hopen (readsCall_of_ok h2)).fails (fails_of_expect h)

theorem fails_of_mustache {c : Cursor} {e : ParseError} (h : mustache c = .error e) :
    Fails ⟨.mustache, c⟩ e := by
  unfold mustache at h
  split at h
  case isTrue ht => exact fails_of_mustacheBetween true ht h
  case isFalse ht => exact fails_of_mustacheBetween false (Bool.eq_false_iff.mpr ht) h

theorem left_skip_lt {c : Cursor} {test : Char → Bool} (h : c.skipSpace.taken test ≠ []) :
    (c.skipSpace.skip test).left < c.left :=
  Nat.lt_of_lt_of_le (precedes_skip h).left_lt c.left_skipSpace_le

theorem fails_of_paramNames {c : Cursor} {e : ParseError} (h : paramNames c = .error e) :
    Fails ⟨.names, c⟩ e := by
  rw [paramNames] at h
  dsimp only at h
  split at h
  case isTrue => cases h
  case isFalse hb =>
    have hb := Bool.eq_false_iff.mpr hb
    split at h
    case isTrue hn =>
      obtain rfl := Except.error.inj h
      exact (Raises.noParam hb hn).fails
    case isFalse hn =>
      have hlt := left_skip_lt hn
      have h := bind_ok_eq_error.mp h
      exact (Enters.nextName hb hn).fails (fails_of_paramNames h)
termination_by c.left
decreasing_by exact hlt

theorem fails_of_blockHead {c : Cursor} {start : Nat} {e : ParseError}
    (h : blockHead c start = .error e) : Fails ⟨.blockHead start, c⟩ e := by
  rcases bind_eq_error.mp h with h | ⟨inner, h1, h⟩
  · exact Enters.headCall.fails (fails_of_call h)
  · have h := bind_ok_eq_error.mp h
    unfold blockParams at h
    split at h
    case isTrue ha =>
      rcases bind_eq_error.mp h with h | ⟨⟨_, behind, _⟩, h2, h⟩
      · exact (Enters.paramsBar (readsCall_of_ok h1) ha).fails (fails_of_expect h)
      · obtain ⟨hb, rfl⟩ := Cursor.startsWith_of_expect h2
        have h := bind_ok_eq_error.mp h
        exact (Enters.names (readsCall_of_ok h1) ha hb).fails (fails_of_paramNames h)
    case isFalse => cases h

/-! ## Opening tags -/

theorem fails_of_parts {quote : Char} {c : Cursor} {e : ParseError} (h : parts quote c = .error e) :
    Fails ⟨.parts quote, c⟩ e := by
  refine Fails.of_reflTransGen (enters_of_rounds (rounds_behindText quote c)) ?_
  have hreaches : c.Reaches (behindText quote c) := reaches_advance ..
  rw [parts] at h
  dsimp only at h
  split at h
  case h_1 hr =>
    obtain rfl := Except.error.inj h
    have hlimit : c.endsWithout (.attributeQuote quote) =
        (behindText quote c).endsWithout (.attributeQuote quote) := by
      rw [endsWithout, endsWithout, hreaches.limit_eq]
    exact hlimit ▸ (Raises.unclosedQuote hr).fails
  case h_2 first others hr =>
    split at h
    case isTrue => cases h
    case isFalse hf =>
      obtain ⟨hhead, hopen⟩ := opens_behindText hr hf
      rcases bind_eq_error.mp h with h | ⟨m, h1, h⟩
      · exact (Enters.part hhead hopen).fails (fails_of_mustache h)
      · have hlt : m.next.left < c.left := Nat.lt_of_lt_of_le m.further hreaches.left_le
        have h := bind_ok_eq_error.mp h
        exact (Enters.afterPart hhead hopen (readsMustache_of_ok h1)).fails (fails_of_parts h)
termination_by c.left
decreasing_by exact hlt

theorem fails_of_attributeValue {c : Cursor} {e : ParseError} (h : attributeValue c = .error e) :
    Fails ⟨.value, c⟩ e := by
  unfold attributeValue at h
  split at h
  case isTrue hm =>
    have h := bind_ok_eq_error.mp h
    exact (Enters.mustacheValue hm).fails (fails_of_mustache h)
  case isFalse hm =>
    split at h
    case h_1 quote others hr =>
      split at h
      case isTrue hq =>
        have h := bind_ok_eq_error.mp h
        exact (Enters.parts (Bool.eq_false_iff.mpr hm) hr hq).fails (fails_of_parts h)
      case isFalse => cases h
    case h_2 => cases h

theorem fails_of_tagAttribute {c : Cursor} {first : Char} {e : ParseError}
    (h : tagAttribute c first = .error e) : Fails ⟨.attr first, c⟩ e := by
  unfold tagAttribute at h
  split at h
  case isTrue hn =>
    obtain rfl := Except.error.inj h
    exact (Raises.noAttributeName hn).fails
  case isFalse hn =>
    have h := bind_ok_eq_error.mp h
    unfold attributeTail at h
    split at h
    case isTrue he =>
      have h := bind_ok_eq_error.mp h
      exact (Enters.value hn he).fails (fails_of_attributeValue h)
    case isFalse => cases h

theorem fails_of_tagBody {tag : String} {start : Nat} {c : Cursor} {e : ParseError}
    (h : tagBody tag start c = .error e) : Fails ⟨.tagBody tag start, c⟩ e := by
  have hle := Cursor.left_skipSpace_le c
  rw [tagBody] at h
  dsimp only at h
  split at h
  case h_1 hr =>
    obtain rfl := Except.error.inj h
    exact (Raises.endInTag hr).fails
  case h_2 first others hr =>
    split at h
    case isTrue => cases h
    case isFalse hs =>
      split at h
      case isTrue => cases h
      case isFalse hf =>
        have hs := Bool.eq_false_iff.mpr hs
        split at h
        case isTrue hm =>
          rcases bind_eq_error.mp h with h | ⟨m, h1, h⟩
          · exact (Enters.modifier hm).fails (fails_of_mustache h)
          · have hlt := Nat.lt_of_lt_of_le m.further hle
            have h := bind_ok_eq_error.mp h
            exact (Enters.afterModifier hm (readsMustache_of_ok h1)).fails (fails_of_tagBody h)
        case isFalse hm =>
          have hm := Bool.eq_false_iff.mpr hm
          rcases bind_eq_error.mp h with h | ⟨a, h1, h⟩
          · exact (Enters.attr hr hs hf hm).fails (fails_of_tagAttribute h)
          · have hlt := Nat.lt_of_lt_of_le a.further hle
            have hhead : ∀ x ∈ c.skipSpace.rest.head?, x ≠ '>' := by
              rw [hr]
              rintro x ⟨⟩
              exact hf
            have h := bind_ok_eq_error.mp h
            exact (Enters.afterAttr hs hhead hm (readsAttribute_of_ok h1)).fails
              (fails_of_tagBody h)
termination_by c.left
decreasing_by all_goals exact hlt

theorem fails_of_openingTag {c : Cursor} {e : ParseError} (h : openingTag c = .error e) :
    Fails ⟨.openingTag, c⟩ e := by
  rcases bind_eq_error.mp h with h | ⟨⟨_, behind, _⟩, h1, h⟩
  · exact Enters.tagStart.fails (fails_of_expect h)
  · obtain ⟨ht, rfl⟩ := Cursor.startsWith_of_expect h1
    have h := bind_ok_eq_error.mp h
    exact (Enters.tagBody ht).fails (fails_of_tagBody h)

/-! ## Items -/

theorem comment_eq_error {c : Cursor} {html : Bool} {opening closing : List Char}
    {ho : opening ≠ [] ∧ c.startsWith opening = true} {e : ParseError}
    (h : commentBetween c html opening closing ho = .error e) :
    splitAtFirst? closing (c.advance opening.length).rest = none ∧
      c.endsWithout (.commentClose (String.ofList closing)) = e := by
  unfold commentBetween at h
  split at h
  case h_1 hs => exact ⟨hs, Except.error.inj h⟩
  case h_2 => cases h

theorem fails_of_item {c : Cursor} {first : Char} {others : List Char}
    {hr : c.rest = first :: others} {e : ParseError} (h : item c first others hr = .error e) :
    Fails ⟨.item, c⟩ e := by
  cases hm : Mark.of c.rest with
  | closingTag =>
      rw [item_closingTag hr hm] at h
      have h := bind_ok_eq_error.mp h
      exact (Enters.closingTagEnd hm).fails (fails_of_expect h)
  | closingBlock =>
      rw [item_closingBlock hr hm] at h
      have h := bind_ok_eq_error.mp h
      exact (Enters.closingBlockEnd hm).fails (fails_of_expect h)
  | elseMark =>
      rw [item_elseMark hr hm] at h
      unfold elseItem at h
      dsimp only at h
      split at h
      case isTrue => cases h
      case isFalse hs =>
        have hs := Bool.eq_false_iff.mpr hs
        rcases bind_eq_error.mp h with h | ⟨head, h1, h⟩
        · exact (Enters.chainedHead hm hs).fails (fails_of_blockHead h)
        · have h := bind_ok_eq_error.mp h
          exact (Enters.chainedEnd hm hs (readsBlockHead_of_ok h1)).fails (fails_of_expect h)
  | longRemark =>
      obtain ⟨ho, hi⟩ := item_longRemark hr hm
      obtain ⟨hs, rfl⟩ := comment_eq_error (hi.symm.trans h)
      exact (Raises.unclosedLongRemark hm hs).fails
  | remark =>
      obtain ⟨ho, hi⟩ := item_remark hr hm
      obtain ⟨hs, rfl⟩ := comment_eq_error (hi.symm.trans h)
      exact (Raises.unclosedRemark hm hs).fails
  | openingBlock =>
      rw [item_openingBlock hr hm] at h
      rcases bind_eq_error.mp h with h | ⟨head, h1, h⟩
      · exact (Enters.openingHead hm).fails (fails_of_blockHead h)
      · have h := bind_ok_eq_error.mp h
        exact (Enters.openingEnd hm (readsBlockHead_of_ok h1)).fails (fails_of_expect h)
  | mustache =>
      rw [item_mustache hr hm] at h
      have h := bind_ok_eq_error.mp h
      exact (Enters.mustacheItem hm).fails (fails_of_mustache h)
  | comment =>
      obtain ⟨ho, hi⟩ := item_comment hr hm
      obtain ⟨hs, rfl⟩ := comment_eq_error (hi.symm.trans h)
      exact (Raises.unclosedComment hm hs).fails
  | openingTag =>
      rw [item_openingTag hr hm] at h
      have h := bind_ok_eq_error.mp h
      exact (Enters.tagItem hm).fails (fails_of_openingTag h)
  | text =>
      rw [item_text hr hm] at h
      cases h

end Reading

end Bracework
