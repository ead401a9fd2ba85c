/-
Reading — the readers find exactly the derivations.

For every reader there are two theorems.  `…_of_ok`: a successful reading is a
derivation of its value, and the place where the reader goes on is the one that
the derivation ends at.  `….complete`: what has a derivation is found.  The two
recursive readers go by induction, the first on what is left of the source and
the second on the derivation; all others are inversions.
-/
import Bracework.Proofs.Reading.Derivation

namespace Bracework

/-- A computation in two parts succeeds when both do. -/
theorem bind_eq_ok {ε α β : Type} {x : Except ε α} {f : α → Except ε β} {b : β} :
    (x >>= f) = .ok b ↔ ∃ a, x = .ok a ∧ f a = .ok b := by
  cases x with
  | error e => exact ⟨fun h => (nomatch h), fun ⟨_, h, _⟩ => (nomatch h)⟩
  | ok a => exact ⟨fun h => ⟨a, rfl, h⟩, fun ⟨_, ha, h⟩ => Except.ok.inj ha ▸ h⟩

namespace Cursor

theorem startsWith_iff {c : Cursor} {token : List Char} :
    c.startsWith token = true ↔ token <+: c.rest :=
  List.isPrefixOf_iff_prefix

theorem rest_of_startsWith {c : Cursor} {first : Char} {token : List Char}
    (h : c.startsWith (first :: token) = true) : ∃ others, c.rest = first :: others := by
  obtain ⟨others, ho⟩ := startsWith_iff.mp h
  exact ⟨token ++ others, ho.symm⟩

theorem startsWith_of_expect {c : Cursor} {token : List Char} {h : token ≠ []}
    {s : Step c Unit} (hs : c.expect token h = .ok s) :
    c.startsWith token = true ∧ s.next = c.advance token.length := by
  unfold expect at hs
  split at hs
  · rename_i ht
    obtain rfl := Except.ok.inj hs
    exact ⟨ht, rfl⟩
  · split at hs <;> cases hs

theorem expect_of_startsWith {c : Cursor} {token : List Char} (h : token ≠ [])
    (hs : c.startsWith token = true) :
    ∃ s, c.expect token h = .ok s ∧ s.next = c.advance token.length := by
  rw [expect, dif_pos hs]
  exact ⟨_, rfl, rfl⟩

end Cursor

/-- The tests behind a mark, at a place. -/
theorem Mark.of_rest (c : Cursor) : Mark.of c.rest =
    if c.startsWith Token.closingTagOpen then .closingTag
    else if c.startsWith Token.blockClose then .closingBlock
    else if Token.startsElse c.rest then .elseMark
    else if c.startsWith Token.longRemarkOpen then .longRemark
    else if c.startsWith Token.remarkOpen then .remark
    else if c.startsWith Token.blockOpen then .openingBlock
    else if c.startsWith Token.mustacheOpen then .mustache
    else if c.startsWith Token.commentOpen then .comment
    else if Token.startsTag c.rest then .openingTag
    else .text := rfl

namespace Reading

/-! ## Expressions and calls -/

mutual
theorem readsExpression_of_ok {c : Cursor} {s : Step c Expression} (h : expression c = .ok s) :
    ReadsExpression c s.value s.next := by
  rw [expression] at h
  split at h
  · cases h
  · rename_i first others hc
    split at h
    · rename_i hf
      subst hf
      obtain ⟨inner, hi, h⟩ := bind_eq_ok.mp h
      obtain ⟨⟨_, behind, _⟩, hcl, h⟩ := bind_eq_ok.mp h
      obtain rfl := Except.ok.inj h
      have hlt : (c.advance 1).skipSpace.left < c.left :=
        Nat.lt_of_le_of_lt (Cursor.left_skipSpace_le _) (left_advance_one hc)
      obtain ⟨hst, rfl⟩ := Cursor.startsWith_of_expect hcl
      exact .sub hc (readsCall_of_ok hi) hst
    · split at h
      · rename_i hq
        unfold string at h
        split at h
        · cases h
        · rename_i hs
          obtain rfl := Except.ok.inj h
          exact .string hc hq hs
      · split at h
        · rename_i hn
          unfold numeral at h
          simp only at h
          split at h
          · cases h
          · rename_i hr
            obtain rfl := Except.ok.inj h
            exact .numeral hc hn hr
        · rename_i hn
          split at h
          · rename_i hp
            obtain rfl := Except.ok.inj h
            exact .word hc (by simpa using hn) hp
          · cases h
termination_by 2 * c.left
decreasing_by omega

theorem readsCall_of_ok {c : Cursor} {start : Nat} {s : Step c Call} (h : call c start = .ok s) :
    ReadsCall c s.value s.next := by
  rw [call] at h
  split at h
  · cases h
  · rename_i he
    obtain ⟨callee, hc, h⟩ := bind_eq_ok.mp h
    obtain ⟨args, ha, h⟩ := bind_eq_ok.mp h
    obtain rfl := Except.ok.inj h
    have hlt := callee.further
    exact .call (by simpa using he) (readsExpression_of_ok hc) (readsArguments_of_ok ha)
termination_by 2 * c.left + 1
decreasing_by all_goals omega

theorem readsArguments_of_ok {c : Cursor} {named : Bool}
    {s : Move c (List Expression × List (String × Expression))} (h : arguments c named = .ok s) :
    ReadsArguments c named s.value.1 s.value.2 s.next := by
  have hle : c.skipSpace.left ≤ c.left := Cursor.left_skipSpace_le c
  rw [arguments] at h
  simp only at h
  split at h
  · rename_i he
    obtain rfl := Except.ok.inj h
    exact .done he
  · rename_i he
    split at h
    · rename_i name hk
      obtain ⟨value, hv, h⟩ := bind_eq_ok.mp h
      obtain ⟨others, ho, h⟩ := bind_eq_ok.mp h
      obtain rfl := Except.ok.inj h
      have hb := left_behindName_le c.skipSpace name
      have hlt := value.further
      exact .named (by simpa using he) hk (readsExpression_of_ok hv) (readsArguments_of_ok ho)
    · rename_i hk
      split at h
      · cases h
      · rename_i hn
        obtain ⟨value, hv, h⟩ := bind_eq_ok.mp h
        obtain ⟨others, ho, h⟩ := bind_eq_ok.mp h
        obtain rfl := Except.ok.inj h
        have hlt := value.further
        obtain rfl : named = false := by simpa using hn
        exact .positional (by simpa using he) hk (readsExpression_of_ok hv)
          (readsArguments_of_ok ho)
termination_by 2 * c.left + 1
decreasing_by all_goals omega
end

mutual
theorem ReadsExpression.complete {c d : Cursor} {e : Expression} :
    ReadsExpression c e d → ∃ s, expression c = .ok s ∧ s.value = e ∧ s.next = d
  | .sub hc hd hst => by
      obtain ⟨inner, hi, rfl, rfl⟩ := hd.complete c.offset
      obtain ⟨closed, hcl, hn⟩ := Cursor.expect_of_startsWith (by decide) hst
      cases c; cases hc
      rw [expression]
      refine ⟨_, bind_eq_ok.mpr ⟨inner, hi, bind_eq_ok.mpr ⟨closed, hcl, rfl⟩⟩, ?_, hn⟩
      simp only [hn]
  | @ReadsExpression.string c quote others text after hc hq hs => by
      cases c; cases hc
      have hp : ¬ (quote = '(') := by
        rintro rfl
        exact absurd hq (by decide)
      rw [expression]
      dsimp only
      rw [if_neg hp, if_pos hq]
      unfold string
      split
      · rename_i hnone; rw [hs] at hnone; cases hnone
      · rename_i hsome
        rw [hs] at hsome
        obtain ⟨rfl, rfl⟩ := Prod.mk.inj (Option.some.inj hsome)
        exact ⟨_, rfl, rfl, rfl⟩
  | @ReadsExpression.numeral c first others value hc hn hr => by
      cases c; cases hc
      have hp : ¬ (first = '(') := by
        rintro rfl
        exact absurd hn (by simp [startsNumeral])
      have hq : ¬ (first = '"' ∨ first = '\'') := by
        rintro (rfl | rfl) <;> exact absurd hn (by simp [startsNumeral])
      rw [expression]
      dsimp only
      rw [if_neg hp, if_neg hq, if_pos hn]
      unfold numeral
      dsimp only
      split
      · rename_i hnone; rw [hr] at hnone; cases hnone
      · rename_i hsome
        rw [hr] at hsome
        obtain rfl := Option.some.inj hsome
        exact ⟨_, rfl, rfl, rfl⟩
  | @ReadsExpression.word c first others hc hn hp => by
      cases c; cases hc
      have hp' : ¬ (first = '(') := by
        rintro rfl
        exact absurd hp (by decide)
      have hq : ¬ (first = '"' ∨ first = '\'') := by
        rintro (rfl | rfl) <;> exact absurd hp (by decide)
      rw [expression]
      dsimp only
      rw [if_neg hp', if_neg hq, if_neg (by simp [hn]), dif_pos hp]
      exact ⟨_, rfl, rfl, rfl⟩
theorem ReadsCall.complete {c d : Cursor} {e : Call} (start : Nat) :
    ReadsCall c e d → ∃ s, call c start = .ok s ∧ s.value = e ∧ s.next = d
  | .call he hc ha => by
      have iha := ha.complete
      obtain ⟨callee, hi, rfl, rfl⟩ := hc.complete
      obtain ⟨args, ho, hv, rfl⟩ := iha
      rw [call, if_neg (by simp [he])]
      refine ⟨_, bind_eq_ok.mpr ⟨callee, hi, bind_eq_ok.mpr ⟨args, ho, rfl⟩⟩, ?_, rfl⟩
      simp only [hv]
theorem ReadsArguments.complete {c d : Cursor} {named : Bool} {params : List Expression}
    {hash : List (String × Expression)} :
    ReadsArguments c named params hash d →
      ∃ s, arguments c named = .ok s ∧ s.value = (params, hash) ∧ s.next = d
  | .done he => by
      rw [arguments, if_pos he]
      exact ⟨_, rfl, rfl, rfl⟩
  | .named he hk hv ho => by
      have iho := ho.complete
      obtain ⟨value, hi, rfl, rfl⟩ := hv.complete
      obtain ⟨others, hm, hvs, rfl⟩ := iho
      rw [arguments]
      dsimp only
      rw [if_neg (by simp [he]), hk]
      refine ⟨_, bind_eq_ok.mpr ⟨value, hi, bind_eq_ok.mpr ⟨others, hm, rfl⟩⟩, ?_, rfl⟩
      simp only [hvs]
  | .positional he hk hv ho => by
      have iho := ho.complete
      obtain ⟨value, hi, rfl, rfl⟩ := hv.complete
      obtain ⟨others, hm, hvs, rfl⟩ := iho
      rw [arguments]
      dsimp only
      rw [if_neg (by simp [he]), hk]
      refine ⟨_, bind_eq_ok.mpr ⟨value, hi, bind_eq_ok.mpr ⟨others, hm, rfl⟩⟩, ?_, rfl⟩
      simp only [hvs]
end

/-! ## Mustaches and block heads -/

theorem readsMustache_of_between {c : Cursor} (trusting : Bool)
    {ho : Mustache.opening trusting ≠ []} {hc : Mustache.closing trusting ≠ []}
    {s : Step c Mustache}
    (ht : c.startsWith Token.trustingOpen = trusting)
    (h : mustacheBetween c trusting (Mustache.opening trusting) (Mustache.closing trusting) ho hc =
      .ok s) :
    ReadsMustache c s.value s.next := by
  obtain ⟨⟨_, behind, _⟩, h1, h⟩ := bind_eq_ok.mp h
  obtain ⟨inner, h2, h⟩ := bind_eq_ok.mp h
  obtain ⟨⟨_, beyond, _⟩, h3, h⟩ := bind_eq_ok.mp h
  obtain rfl := Except.ok.inj h
  obtain ⟨ho, rfl⟩ := Cursor.startsWith_of_expect h1
  obtain ⟨hc, rfl⟩ := Cursor.startsWith_of_expect h3
  exact .mustache ht ho (readsCall_of_ok h2) hc

theorem readsMustache_of_ok {c : Cursor} {s : Step c Mustache} (h : mustache c = .ok s) :
    ReadsMustache c s.value s.next := by
  unfold mustache at h
  split at h
  · rename_i ht
    exact readsMustache_of_between true ht h
  · rename_i ht
    exact readsMustache_of_between false (by simpa using ht) h

theorem ReadsMustache.complete {c d : Cursor} {m : Mustache} (h : ReadsMustache c m d) :
    ∃ s, Reading.mustache c = .ok s ∧ s.value = m ∧ s.next = d := by
  cases h with
  | @mustache d trusting inner ht ho hc hcl =>
      have hne : ∀ t, Mustache.opening t ≠ [] := by decide
      have hne' : ∀ t, Mustache.closing t ≠ [] := by decide
      obtain ⟨opened, h1, hn⟩ := Cursor.expect_of_startsWith (hne trusting) ho
      rw [← hn] at hc
      obtain ⟨read, h2, rfl, rfl⟩ := hc.complete c.offset
      obtain ⟨closed, h3, hn'⟩ := Cursor.expect_of_startsWith (hne' trusting) hcl
      have hb : ∃ s, mustacheBetween c trusting (Mustache.opening trusting)
          (Mustache.closing trusting) (hne trusting) (hne' trusting) = .ok s ∧
          s.value = ⟨read.value, trusting,
            (read.next.skipSpace.advance (Mustache.closing trusting).length).spanFrom c.offset⟩ ∧
          s.next = read.next.skipSpace.advance (Mustache.closing trusting).length := by
        refine ⟨_, bind_eq_ok.mpr ⟨opened, h1, bind_eq_ok.mpr ⟨read, h2,
          bind_eq_ok.mpr ⟨closed, h3, rfl⟩⟩⟩, ?_, hn'⟩
        simp only [hn']
      cases trusting with
      | true => rw [Reading.mustache, if_pos ht]; exact hb
      | false => rw [Reading.mustache, if_neg (by simp [ht])]; exact hb

theorem readsNames_of_ok {c : Cursor} {s : Step c (List String)} (h : paramNames c = .ok s) :
    ReadsNames c s.value s.next := by
  rw [paramNames] at h
  dsimp only at h
  split at h
  · rename_i hb
    obtain rfl := Except.ok.inj h
    exact .bar hb
  · rename_i hb
    split at h
    · cases h
    · rename_i hn
      obtain ⟨others, ho, h⟩ := bind_eq_ok.mp h
      obtain rfl := Except.ok.inj h
      have hlt : (c.skipSpace.skip Token.isNameChar).left < c.left := by
        have h1 := congrArg List.length
          (List.takeWhile_append_dropWhile (p := Token.isNameChar) (l := c.skipSpace.rest))
        have h2 := List.length_pos_iff.mpr hn
        have h3 := Cursor.left_skipSpace_le c
        simp only [List.length_append, Cursor.taken, Cursor.left, Cursor.skip] at h1 h2 h3 ⊢
        omega
      exact .name (by simpa using hb) hn (readsNames_of_ok ho)
termination_by c.left
decreasing_by exact hlt

theorem ReadsNames.complete {c d : Cursor} {names : List String} (h : ReadsNames c names d) :
    ∃ s, paramNames c = .ok s ∧ s.value = names ∧ s.next = d := by
  induction h with
  | bar hb =>
      rw [paramNames]
      dsimp only
      rw [dif_pos hb]
      exact ⟨_, rfl, rfl, rfl⟩
  | name hb hn _ ih =>
      obtain ⟨others, ho, rfl, rfl⟩ := ih
      rw [paramNames]
      dsimp only
      rw [dif_neg (by simp [hb]), dif_neg hn]
      exact ⟨_, bind_eq_ok.mpr ⟨others, ho, rfl⟩, rfl, rfl⟩

theorem readsBlockParams_of_ok {c : Cursor} {s : Move c (List String)}
    (h : blockParams c = .ok s) : ReadsBlockParams c s.value s.next := by
  unfold blockParams at h
  split at h
  · rename_i ha
    obtain ⟨⟨_, behind, _⟩, h1, h⟩ := bind_eq_ok.mp h
    obtain ⟨names, h2, h⟩ := bind_eq_ok.mp h
    obtain rfl := Except.ok.inj h
    obtain ⟨hb, rfl⟩ := Cursor.startsWith_of_expect h1
    exact .some ha hb (readsNames_of_ok h2)
  · rename_i ha
    obtain rfl := Except.ok.inj h
    exact .none (by simpa using ha)

theorem ReadsBlockParams.complete {c d : Cursor} {names : List String}
    (h : ReadsBlockParams c names d) :
    ∃ s, blockParams c = .ok s ∧ s.value = names ∧ s.next = d := by
  cases h with
  | some ha hb hn =>
      obtain ⟨bar, h1, hbar⟩ := Cursor.expect_of_startsWith (by decide) hb
      rw [← hbar] at hn
      obtain ⟨read, h2, rfl, rfl⟩ := hn.complete
      rw [blockParams, if_pos ha]
      exact ⟨_, bind_eq_ok.mpr ⟨bar, h1, bind_eq_ok.mpr ⟨read, h2, rfl⟩⟩, rfl, rfl⟩
  | none ha =>
      rw [blockParams, if_neg (by simp [ha])]
      exact ⟨_, rfl, rfl, rfl⟩

theorem readsBlockHead_of_ok {c : Cursor} {start : Nat} {s : Step c BlockHead}
    (h : blockHead c start = .ok s) : ReadsBlockHead c start s.value s.next := by
  obtain ⟨inner, h1, h⟩ := bind_eq_ok.mp h
  obtain ⟨params, h2, h⟩ := bind_eq_ok.mp h
  obtain rfl := Except.ok.inj h
  exact .head (readsCall_of_ok h1) (readsBlockParams_of_ok h2)

theorem ReadsBlockHead.complete {c d : Cursor} {start : Nat} {head : BlockHead}
    (h : ReadsBlockHead c start head d) :
    ∃ s, blockHead c start = .ok s ∧ s.value = head ∧ s.next = d := by
  cases h with
  | head hc hp =>
      obtain ⟨inner, h1, rfl, rfl⟩ := hc.complete start
      obtain ⟨params, h2, rfl, rfl⟩ := hp.complete
      exact ⟨_, bind_eq_ok.mpr ⟨inner, h1, bind_eq_ok.mpr ⟨params, h2, rfl⟩⟩, rfl, rfl⟩

/-! ## Attributes -/

theorem readsParts_of_ok {quote : Char} {c : Cursor} {s : Step c (List AttributePart)}
    (h : parts quote c = .ok s) : ReadsParts quote c s.value s.next := by
  rw [parts] at h
  dsimp only at h
  split at h
  · cases h
  · rename_i first others hr
    split at h
    · rename_i hf
      subst hf
      obtain rfl := Except.ok.inj h
      exact .close hr
    · rename_i hf
      obtain ⟨m, h1, h⟩ := bind_eq_ok.mp h
      obtain ⟨pieces, h2, h⟩ := bind_eq_ok.mp h
      obtain rfl := Except.ok.inj h
      have hlt : m.next.left < c.left := by
        have h3 := m.further
        have h4 := Cursor.left_advance c (partText quote c.rest).length
        omega
      exact .mustache hr hf (readsMustache_of_ok h1) (readsParts_of_ok h2)
termination_by c.left
decreasing_by exact hlt

theorem ReadsParts.complete {quote : Char} {c d : Cursor} {pieces : List AttributePart}
    (h : ReadsParts quote c pieces d) :
    ∃ s, parts quote c = .ok s ∧ s.value = pieces ∧ s.next = d := by
  induction h with
  | @close c others hr =>
      rw [parts]
      dsimp only
      split
      · rename_i hnil; rw [← behindText, hr] at hnil; cases hnil
      · rename_i hcons
        rw [← behindText, hr] at hcons
        obtain ⟨rfl, rfl⟩ := List.cons.inj hcons
        rw [if_pos rfl]
        exact ⟨_, rfl, rfl, rfl⟩
  | @mustache c d e first others m pieces hr hf hm _ ih =>
      obtain ⟨read, h1, rfl, rfl⟩ := hm.complete
      obtain ⟨later, h2, rfl, rfl⟩ := ih
      rw [parts]
      dsimp only
      split
      · rename_i hnil; rw [← behindText, hr] at hnil; cases hnil
      · rename_i hcons
        rw [← behindText, hr] at hcons
        obtain ⟨rfl, rfl⟩ := List.cons.inj hcons
        rw [if_neg hf]
        exact ⟨_, bind_eq_ok.mpr ⟨read, h1, bind_eq_ok.mpr ⟨later, h2, rfl⟩⟩, rfl, rfl⟩

theorem readsValue_of_ok {c : Cursor} {s : Move c AttributeValue} (h : attributeValue c = .ok s) :
    ReadsValue c s.value s.next := by
  unfold attributeValue at h
  split at h
  · rename_i hm
    obtain ⟨m, h1, h⟩ := bind_eq_ok.mp h
    obtain rfl := Except.ok.inj h
    exact .mustache hm (readsMustache_of_ok h1)
  · rename_i hm
    have hm : c.startsWith Token.mustacheOpen = false := by simpa using hm
    split at h
    · rename_i quote others hr
      split at h
      · rename_i hq
        obtain ⟨pieces, h1, h⟩ := bind_eq_ok.mp h
        obtain rfl := Except.ok.inj h
        exact .quoted hm hr hq (readsParts_of_ok h1)
      · rename_i hq
        obtain rfl := Except.ok.inj h
        exact .bare hm (by simpa [hr] using hq)
    · rename_i hr
      obtain rfl := Except.ok.inj h
      exact .bare hm (by simp [hr])

theorem ReadsValue.complete {c d : Cursor} {v : AttributeValue} (h : ReadsValue c v d) :
    ∃ s, attributeValue c = .ok s ∧ s.value = v ∧ s.next = d := by
  cases h with
  | mustache hm hd =>
      obtain ⟨read, h1, rfl, rfl⟩ := hd.complete
      rw [attributeValue, if_pos hm]
      exact ⟨_, bind_eq_ok.mpr ⟨read, h1, rfl⟩, rfl, rfl⟩
  | quoted hm hr hq hd =>
      obtain ⟨pieces, h1, rfl, rfl⟩ := hd.complete
      rw [attributeValue, if_neg (by simp [hm]), hr]
      dsimp only
      rw [if_pos hq]
      exact ⟨_, bind_eq_ok.mpr ⟨pieces, h1, rfl⟩, rfl, rfl⟩
  | bare hm hq =>
      rw [attributeValue, if_neg (by simp [hm])]
      split
      · rename_i quote others hr
        rw [if_neg (hq quote (by simp [hr]))]
        exact ⟨_, rfl, rfl, rfl⟩
      · exact ⟨_, rfl, rfl, rfl⟩

theorem readsAttributeTail_of_ok {c : Cursor} {s : Move c AttributeValue}
    (h : attributeTail c = .ok s) : ReadsAttributeTail c s.value s.next := by
  unfold attributeTail at h
  split at h
  · rename_i he
    obtain ⟨value, h1, h⟩ := bind_eq_ok.mp h
    obtain rfl := Except.ok.inj h
    exact .value he (readsValue_of_ok h1)
  · rename_i he
    obtain rfl := Except.ok.inj h
    exact .empty (by simpa using he)

theorem ReadsAttributeTail.complete {c d : Cursor} {v : AttributeValue}
    (h : ReadsAttributeTail c v d) :
    ∃ s, attributeTail c = .ok s ∧ s.value = v ∧ s.next = d := by
  cases h with
  | value he hv =>
      obtain ⟨read, h1, rfl, rfl⟩ := hv.complete
      rw [attributeTail, if_pos he]
      exact ⟨_, bind_eq_ok.mpr ⟨read, h1, rfl⟩, rfl, rfl⟩
  | empty he =>
      rw [attributeTail, if_neg (by simp [he])]
      exact ⟨_, rfl, rfl, rfl⟩

theorem readsAttribute_of_ok {c : Cursor} {first : Char} {s : Step c Attribute}
    (h : tagAttribute c first = .ok s) : ReadsAttribute c s.value s.next := by
  unfold tagAttribute at h
  split at h
  · cases h
  · rename_i hn
    obtain ⟨value, h1, h⟩ := bind_eq_ok.mp h
    obtain rfl := Except.ok.inj h
    exact .attr hn (readsAttributeTail_of_ok h1)

theorem ReadsAttribute.complete {c d : Cursor} {a : Attribute} (first : Char)
    (h : ReadsAttribute c a d) :
    ∃ s, tagAttribute c first = .ok s ∧ s.value = a ∧ s.next = d := by
  cases h with
  | attr hn hv =>
      obtain ⟨value, h1, rfl, rfl⟩ := hv.complete
      rw [tagAttribute, dif_neg hn]
      exact ⟨_, bind_eq_ok.mpr ⟨value, h1, rfl⟩, rfl, rfl⟩

/-! ## Opening tags -/

theorem readsTagBody_of_ok {tag : String} {start : Nat} {c : Cursor} {s : Step c TagBody}
    (h : tagBody tag start c = .ok s) :
    ReadsTagBody c s.value.attributes s.value.modifiers s.value.selfClosing s.next := by
  have hle := Cursor.left_skipSpace_le c
  rw [tagBody] at h
  dsimp only at h
  split at h
  · cases h
  · rename_i first others hr
    split at h
    · rename_i hs
      obtain rfl := Except.ok.inj h
      exact .selfClose hs
    · rename_i hs
      split at h
      · rename_i hf
        subst hf
        obtain rfl := Except.ok.inj h
        exact .close hr
      · rename_i hf
        split at h
        · rename_i hm
          obtain ⟨m, h1, h⟩ := bind_eq_ok.mp h
          obtain ⟨later, h2, h⟩ := bind_eq_ok.mp h
          obtain rfl := Except.ok.inj h
          have hlt := Nat.lt_of_lt_of_le m.further hle
          exact .modifier hm (readsMustache_of_ok h1) (readsTagBody_of_ok h2)
        · rename_i hm
          obtain ⟨a, h1, h⟩ := bind_eq_ok.mp h
          obtain ⟨later, h2, h⟩ := bind_eq_ok.mp h
          obtain rfl := Except.ok.inj h
          have hlt := Nat.lt_of_lt_of_le a.further hle
          exact .attr (by simpa using hs) (by simpa [hr] using hf) (by simpa using hm)
            (readsAttribute_of_ok h1) (readsTagBody_of_ok h2)
termination_by c.left
decreasing_by all_goals exact hlt

theorem ReadsTagBody.complete {c d : Cursor} {attributes : List Attribute}
    {modifiers : List Mustache} {selfClosing : Bool} (tag : String) (start : Nat)
    (h : ReadsTagBody c attributes modifiers selfClosing d) :
    ∃ s, tagBody tag start c = .ok s ∧ s.value = ⟨attributes, modifiers, selfClosing⟩ ∧
      s.next = d := by
  induction h with
  | @selfClose c hs =>
      obtain ⟨others, hr⟩ := Cursor.rest_of_startsWith hs
      rw [tagBody]
      dsimp only
      split
      · rename_i hnil; rw [hr] at hnil; cases hnil
      · rw [dif_pos hs]
        exact ⟨_, rfl, rfl, rfl⟩
  | @close c others hr =>
      rw [tagBody]
      dsimp only
      split
      · rename_i hnil; rw [hr] at hnil; cases hnil
      · rename_i hcons
        rw [hr] at hcons
        obtain ⟨rfl, rfl⟩ := List.cons.inj hcons
        rw [dif_neg (by simp [Cursor.startsWith, hr, Token.selfClose]), if_pos rfl]
        exact ⟨_, rfl, rfl, rfl⟩
  | @modifier c d e m attributes modifiers selfClosing hm hd _ ih =>
      obtain ⟨others, hr⟩ := Cursor.rest_of_startsWith hm
      obtain ⟨read, h1, rfl, rfl⟩ := hd.complete
      obtain ⟨later, h2, hv, rfl⟩ := ih
      rw [tagBody]
      dsimp only
      split
      · rename_i hnil; rw [hr] at hnil; cases hnil
      · rename_i hcons
        rw [hr] at hcons
        obtain ⟨rfl, rfl⟩ := List.cons.inj hcons
        rw [dif_neg (by simp [Cursor.startsWith, hr, Token.selfClose]), if_neg (by decide),
          if_pos hm]
        refine ⟨_, bind_eq_ok.mpr ⟨read, h1, bind_eq_ok.mpr ⟨later, h2, rfl⟩⟩, ?_, rfl⟩
        simp only [hv]
  | @attr c d e a attributes modifiers selfClosing hs hf hm hd _ ih =>
      obtain ⟨later, h2, hv, rfl⟩ := ih
      rw [tagBody]
      dsimp only
      split
      · rename_i hnil
        cases hd with
        | attr hn _ => exact absurd (by simp [Cursor.taken, hnil]) hn
      · rename_i first others hcons
        obtain ⟨read, h1, rfl, rfl⟩ := hd.complete first
        rw [dif_neg (by simp [hs]), if_neg (hf first (by simp [hcons])), if_neg (by simp [hm])]
        refine ⟨_, bind_eq_ok.mpr ⟨read, h1, bind_eq_ok.mpr ⟨later, h2, rfl⟩⟩, ?_, rfl⟩
        simp only [hv]

theorem readsOpeningTag_of_ok {c : Cursor} {s : Step c OpeningTag} (h : openingTag c = .ok s) :
    ReadsOpeningTag c s.value s.next := by
  obtain ⟨⟨_, behind, _⟩, h1, h⟩ := bind_eq_ok.mp h
  obtain ⟨body, h2, h⟩ := bind_eq_ok.mp h
  obtain rfl := Except.ok.inj h
  obtain ⟨hst, rfl⟩ := Cursor.startsWith_of_expect h1
  exact .tag hst (readsTagBody_of_ok h2)

theorem ReadsOpeningTag.complete {c d : Cursor} {tag : OpeningTag} (h : ReadsOpeningTag c tag d) :
    ∃ s, openingTag c = .ok s ∧ s.value = tag ∧ s.next = d := by
  cases h with
  | tag hst hb =>
      obtain ⟨opened, h1, hn⟩ := Cursor.expect_of_startsWith (by decide) hst
      rw [← hn] at hb
      obtain ⟨body, h2, hv, rfl⟩ :=
        hb.complete (String.ofList (opened.next.taken Token.isTagChar)) c.offset
      refine ⟨_, bind_eq_ok.mpr ⟨opened, h1, bind_eq_ok.mpr ⟨body, h2, rfl⟩⟩, ?_, rfl⟩
      simp only [hv, hn]

/-! ## Items -/

theorem readsComment_of_ok {c : Cursor} {html : Bool} {opening closing : List Char}
    {ho : opening ≠ [] ∧ c.startsWith opening = true} {s : Step c Item}
    (h : commentBetween c html opening closing ho = .ok s) :
    ∃ comment, s.value = .leaf (.comment comment) ∧
      ReadsComment html opening closing c comment s.next := by
  unfold commentBetween at h
  split at h
  · cases h
  · rename_i hs
    obtain rfl := Except.ok.inj h
    exact ⟨_, rfl, .comment ho.2 hs⟩

theorem ReadsComment.complete {c d : Cursor} {html : Bool} {opening closing : List Char}
    {comment : Comment} (ho : opening ≠ [] ∧ c.startsWith opening = true)
    (h : ReadsComment html opening closing c comment d) :
    ∃ s, commentBetween c html opening closing ho = .ok s ∧
      s.value = .leaf (.comment comment) ∧ s.next = d := by
  cases h with
  | comment _ hs =>
      unfold commentBetween
      split
      · rename_i hnone; rw [hs] at hnone; cases hnone
      · rename_i hsome
        rw [hs] at hsome
        obtain ⟨rfl, rfl⟩ := Prod.mk.inj (Option.some.inj hsome)
        exact ⟨_, rfl, rfl, rfl⟩

/-! The reader of an item goes by the mark that it meets. -/

section Dispatch

variable {c : Cursor} {first : Char} {others : List Char} (hr : c.rest = first :: others)

theorem item_closingTag (hm : Mark.of c.rest = .closingTag) :
    item c first others hr = closingTag c := by
  rw [Mark.of_rest] at hm
  unfold item
  grind

theorem item_closingBlock (hm : Mark.of c.rest = .closingBlock) :
    item c first others hr = closingBlock c := by
  rw [Mark.of_rest] at hm
  unfold item
  grind

theorem item_elseMark (hm : Mark.of c.rest = .elseMark) :
    item c first others hr = elseItem c := by
  rw [Mark.of_rest] at hm
  unfold item
  grind

theorem item_longRemark (hm : Mark.of c.rest = .longRemark) :
    ∃ ho, item c first others hr =
      commentBetween c false Token.longRemarkOpen Token.longRemarkClose ho := by
  rw [Mark.of_rest] at hm
  have ho : c.startsWith Token.longRemarkOpen = true := by grind
  refine ⟨⟨by decide, ho⟩, ?_⟩
  unfold item
  grind

theorem item_remark (hm : Mark.of c.rest = .remark) :
    ∃ ho, item c first others hr =
      commentBetween c false Token.remarkOpen Token.mustacheClose ho := by
  rw [Mark.of_rest] at hm
  have ho : c.startsWith Token.remarkOpen = true := by grind
  refine ⟨⟨by decide, ho⟩, ?_⟩
  unfold item
  grind

theorem item_openingBlock (hm : Mark.of c.rest = .openingBlock) :
    item c first others hr = openingBlock c := by
  rw [Mark.of_rest] at hm
  unfold item
  grind

theorem item_mustache (hm : Mark.of c.rest = .mustache) :
    item c first others hr = (do
      let m ← mustache c
      return ⟨.leaf (.mustache m.value), m.next, m.further⟩) := by
  rw [Mark.of_rest] at hm
  unfold item
  grind

theorem item_comment (hm : Mark.of c.rest = .comment) :
    ∃ ho, item c first others hr =
      commentBetween c true Token.commentOpen Token.commentClose ho := by
  rw [Mark.of_rest] at hm
  have ho : c.startsWith Token.commentOpen = true := by grind
  refine ⟨⟨by decide, ho⟩, ?_⟩
  unfold item
  grind

theorem item_openingTag (hm : Mark.of c.rest = .openingTag) :
    item c first others hr = (do
      let tag ← openingTag c
      return ⟨.openTag tag.value, tag.next, tag.further⟩) := by
  rw [Mark.of_rest] at hm
  unfold item
  grind

theorem item_text (hm : Mark.of c.rest = .text) :
    item c first others hr = .ok (textItem c first others hr) := by
  rw [Mark.of_rest] at hm
  unfold item
  grind

end Dispatch

theorem readsElse_of_ok {c : Cursor} {s : Step c Item} (hm : Mark.of c.rest = .elseMark)
    (h : elseItem c = .ok s) : ReadsItem c s.value s.next := by
  unfold elseItem at h
  dsimp only at h
  split at h
  · rename_i hs
    obtain rfl := Except.ok.inj h
    exact .bareElse hm hs
  · rename_i hs
    obtain ⟨head, h1, h⟩ := bind_eq_ok.mp h
    obtain ⟨⟨_, beyond, _⟩, h2, h⟩ := bind_eq_ok.mp h
    obtain rfl := Except.ok.inj h
    obtain ⟨hst, rfl⟩ := Cursor.startsWith_of_expect h2
    exact .chainedElse hm (by simpa [behindElse] using hs) (readsBlockHead_of_ok h1) hst

theorem readsItem_of_ok {c : Cursor} {first : Char} {others : List Char}
    {hr : c.rest = first :: others} {s : Step c Item} (h : item c first others hr = .ok s) :
    ReadsItem c s.value s.next := by
  cases hm : Mark.of c.rest with
  | closingTag =>
      rw [item_closingTag hr hm] at h
      obtain ⟨⟨_, beyond, _⟩, h1, h⟩ := bind_eq_ok.mp h
      obtain rfl := Except.ok.inj h
      obtain ⟨hst, rfl⟩ := Cursor.startsWith_of_expect h1
      exact .closingTag hm rfl hst rfl
  | closingBlock =>
      rw [item_closingBlock hr hm] at h
      obtain ⟨⟨_, beyond, _⟩, h1, h⟩ := bind_eq_ok.mp h
      obtain rfl := Except.ok.inj h
      obtain ⟨hst, rfl⟩ := Cursor.startsWith_of_expect h1
      exact .closingBlock hm rfl hst rfl
  | elseMark =>
      rw [item_elseMark hr hm] at h
      exact readsElse_of_ok hm h
  | longRemark =>
      obtain ⟨ho, hi⟩ := item_longRemark hr hm
      obtain ⟨remark, hv, hd⟩ := readsComment_of_ok (hi.symm.trans h)
      rw [hv]
      exact .longRemark hm hd
  | remark =>
      obtain ⟨ho, hi⟩ := item_remark hr hm
      obtain ⟨remark, hv, hd⟩ := readsComment_of_ok (hi.symm.trans h)
      rw [hv]
      exact .remark hm hd
  | openingBlock =>
      rw [item_openingBlock hr hm] at h
      obtain ⟨head, h1, h⟩ := bind_eq_ok.mp h
      obtain ⟨⟨_, beyond, _⟩, h2, h⟩ := bind_eq_ok.mp h
      obtain rfl := Except.ok.inj h
      obtain ⟨hst, rfl⟩ := Cursor.startsWith_of_expect h2
      exact .openingBlock hm (readsBlockHead_of_ok h1) hst
  | mustache =>
      rw [item_mustache hr hm] at h
      obtain ⟨m, h1, h⟩ := bind_eq_ok.mp h
      obtain rfl := Except.ok.inj h
      exact .mustache hm (readsMustache_of_ok h1)
  | comment =>
      obtain ⟨ho, hi⟩ := item_comment hr hm
      obtain ⟨comment, hv, hd⟩ := readsComment_of_ok (hi.symm.trans h)
      rw [hv]
      exact .comment hm hd
  | openingTag =>
      rw [item_openingTag hr hm] at h
      obtain ⟨tag, h1, h⟩ := bind_eq_ok.mp h
      obtain rfl := Except.ok.inj h
      exact .openingTag hm (readsOpeningTag_of_ok h1)
  | text =>
      rw [item_text hr hm] at h
      obtain rfl := Except.ok.inj h
      exact .text hm hr

theorem ReadsItem.complete {c d : Cursor} {i : Item} {first : Char} {others : List Char}
    (hr : c.rest = first :: others) (h : ReadsItem c i d) :
    ∃ s, item c first others hr = .ok s ∧ s.value = i ∧ s.next = d := by
  cases h with
  | closingTag hm hd hst he =>
      obtain ⟨closed, h1, hn⟩ := Cursor.expect_of_startsWith (by decide) hst
      subst hd he
      rw [item_closingTag hr hm]
      refine ⟨_, bind_eq_ok.mpr ⟨closed, h1, rfl⟩, ?_, hn⟩
      simp only [hn]
  | closingBlock hm hd hst he =>
      subst hd he
      obtain ⟨closed, h1, hn⟩ := Cursor.expect_of_startsWith (by decide) hst
      rw [item_closingBlock hr hm]
      refine ⟨_, bind_eq_ok.mpr ⟨closed, h1, rfl⟩, ?_, hn⟩
      simp only [hn]
      rfl
  | bareElse hm hs =>
      have hs : (c.advance Token.elseOpen.length).skipSpace.startsWith Token.mustacheClose := hs
      rw [item_elseMark hr hm, elseItem, dif_pos hs]
      exact ⟨_, rfl, rfl, rfl⟩
  | chainedElse hm hs hd hst =>
      obtain ⟨head, h1, rfl, rfl⟩ := hd.complete
      obtain ⟨closed, h2, hn⟩ := Cursor.expect_of_startsWith (by decide) hst
      have hs : ¬ (c.advance Token.elseOpen.length).skipSpace.startsWith Token.mustacheClose := by
        simpa [behindElse] using hs
      rw [item_elseMark hr hm, elseItem, dif_neg hs]
      refine ⟨_, bind_eq_ok.mpr ⟨head, h1, bind_eq_ok.mpr ⟨closed, h2, rfl⟩⟩, ?_, hn⟩
      simp only [hn]
  | longRemark hm hd =>
      obtain ⟨ho, hi⟩ := item_longRemark hr hm
      rw [hi]
      exact hd.complete ho
  | remark hm hd =>
      obtain ⟨ho, hi⟩ := item_remark hr hm
      rw [hi]
      exact hd.complete ho
  | openingBlock hm hd hst =>
      obtain ⟨head, h1, rfl, rfl⟩ := hd.complete
      obtain ⟨closed, h2, hn⟩ := Cursor.expect_of_startsWith (by decide) hst
      rw [item_openingBlock hr hm]
      exact ⟨_, bind_eq_ok.mpr ⟨head, h1, bind_eq_ok.mpr ⟨closed, h2, rfl⟩⟩, rfl, hn⟩
  | mustache hm hd =>
      obtain ⟨m, h1, rfl, rfl⟩ := hd.complete
      rw [item_mustache hr hm]
      exact ⟨_, bind_eq_ok.mpr ⟨m, h1, rfl⟩, rfl, rfl⟩
  | comment hm hd =>
      obtain ⟨ho, hi⟩ := item_comment hr hm
      rw [hi]
      exact hd.complete ho
  | openingTag hm hd =>
      obtain ⟨tag, h1, rfl, rfl⟩ := hd.complete
      rw [item_openingTag hr hm]
      exact ⟨_, bind_eq_ok.mpr ⟨tag, h1, rfl⟩, rfl, rfl⟩
  | @text first' others' hm hr' =>
      obtain ⟨rfl, rfl⟩ := List.cons.inj (hr.symm.trans hr')
      rw [item_text hr hm]
      exact ⟨_, rfl, rfl, rfl⟩

end Reading

end Bracework
