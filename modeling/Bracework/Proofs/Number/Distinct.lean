/-
Numbers — different numbers have different JSON texts.

A finite value is written with a point or an exponent mark, or with both, and a
whole number with neither, so the two kinds of number cannot be mistaken for each
other.  Of a finite value the text shows the sign, and what stands behind the sign
is read as a decimal with the code of the magnitude: the texts of two magnitudes
are the same only if their codes are.
-/
import Bracework.Json.Text
import Bracework.Proofs.Number.ReadBack

namespace Bracework

/-! ## Reading an exponent -/

namespace Numeral

/-- An exponent part reads back as the exponent that it was written for. -/
theorem exponent?_mark (e : Int) :
    exponent? ('e' :: (if 0 ≤ e then '+' else '-') :: Nat.toDigits 10 e.natAbs) = some e := by
  have hdigits : digits (Nat.toDigits 10 e.natAbs) = (Nat.toDigits 10 e.natAbs, []) := by
    have h := digits_append [] (Decimal.isDigit_toDigits (n := e.natAbs)) nofun
    rwa [List.append_nil] at h
  have hne : Nat.toDigits 10 e.natAbs ≠ [] := by simp
  by_cases hsign : 0 ≤ e
  · have hsigned : sign ('+' :: Nat.toDigits 10 e.natAbs) = (false, Nat.toDigits 10 e.natAbs) := rfl
    simp [exponent?, hsign, hsigned, hdigits, hne]
  · have hsigned : sign ('-' :: Nat.toDigits 10 e.natAbs) = (true, Nat.toDigits 10 e.natAbs) := rfl
    have habs : -|e| = e := by rw [abs_of_neg (Int.not_le.mp hsign), Int.neg_neg]
    simp [exponent?, hsign, hsigned, hdigits, hne, habs]

variable {whole places mark : List Char} {e : Int}

/-- Digits and an exponent part. -/
theorem decimal?_mark (hne : whole ≠ []) (hw : ∀ c ∈ whole, c.isDigit = true)
    (hm : exponent? ('e' :: mark) = some e) :
    decimal? (whole ++ 'e' :: mark) = some ⟨Nat.ofDigitChars 10 whole 0, e⟩ := by
  have hwhole := digits_append ('e' :: mark) hw (by simp)
  simp [decimal?, hwhole, fraction, hne, hm]

/-- Digits with a point among them and an exponent part. -/
theorem decimal?_point_mark (hne : whole ≠ []) (hw : ∀ c ∈ whole, c.isDigit = true)
    (hp : ∀ c ∈ places, c.isDigit = true) (hm : exponent? ('e' :: mark) = some e) :
    decimal? (whole ++ '.' :: (places ++ 'e' :: mark)) =
      some ⟨Nat.ofDigitChars 10 (whole ++ places) 0, e - places.length⟩ := by
  have hwhole := digits_append ('.' :: (places ++ 'e' :: mark)) hw (by simp)
  have hplaces := digits_append ('e' :: mark) hp (by simp)
  simp [decimal?, hwhole, fraction, hplaces, hne, hm]

end Numeral

/-! ## The text of a magnitude -/

/-- The characters of a JSON number. -/
def isNumberChar (c : Char) : Bool := c.isDigit || c == '.' || c == 'e' || c == '+' || c == '-'

/-- A text that starts with a digit, has the characters of a number, and shows by a point or
an exponent mark that it is no whole number. -/
structure IsRealText (text : List Char) : Prop where
  digit : ∃ first others, text = first :: others ∧ first.isDigit = true
  chars : ∀ c ∈ text, isNumberChar c = true
  marked : ∃ c ∈ text, c = '.' ∨ c = 'e'

theorem isNumberChar_of_isDigit {c : Char} (h : c.isDigit = true) : isNumberChar c = true := by
  rw [isNumberChar, h]
  rfl

namespace IsRealText

variable {whole places mark : List Char}

/-- What digits are followed by shows that the number is no whole one. -/
theorem of_marked (hne : whole ≠ []) (hw : ∀ c ∈ whole, c.isDigit = true)
    (hm : ∀ c ∈ mark, isNumberChar c = true) (hmarked : ∃ c ∈ mark, c = '.' ∨ c = 'e') :
    IsRealText (whole ++ mark) := by
  cases whole with
  | nil => exact absurd rfl hne
  | cons first others =>
      refine ⟨⟨first, others ++ mark, rfl, hw first List.mem_cons_self⟩, ?_, ?_⟩
      · intro c hc
        rcases List.mem_append.mp hc with hc | hc
        · exact isNumberChar_of_isDigit (hw c hc)
        · exact hm c hc
      · obtain ⟨c, hc, hcases⟩ := hmarked
        exact ⟨c, List.mem_append_right _ hc, hcases⟩

theorem of_point (hne : whole ≠ []) (hw : ∀ c ∈ whole, c.isDigit = true)
    (hp : ∀ c ∈ places, isNumberChar c = true) : IsRealText (whole ++ '.' :: places) :=
  of_marked hne hw (List.forall_mem_cons.mpr ⟨rfl, hp⟩) ⟨'.', List.mem_cons_self, .inl rfl⟩

end IsRealText

namespace Decimal

/-- A text is that of a number that is no whole one, and is read as a decimal of the same code. -/
def Marks (text : List Char) (d : Decimal) : Prop :=
  IsRealText text ∧ ∃ d', Numeral.decimal? text = some d' ∧ d'.code = d.code

/-- A whole number with a point and a zero. -/
theorem marks_whole (n zeros : Nat) :
    Marks (Nat.toDigits 10 n ++ List.replicate zeros '0' ++ ['.', '0']) ⟨n, zeros⟩ := by
  have hne : Nat.toDigits 10 n ++ List.replicate zeros '0' ≠ [] := by simp
  have hd := isDigit_append (isDigit_toDigits (n := n)) (isDigit_replicate (n := zeros))
  have hzero : ∀ c ∈ ['0'], c.isDigit = true := by simp
  have hvalue : Nat.ofDigitChars 10 (Nat.toDigits 10 n ++ List.replicate zeros '0' ++ ['0']) 0 =
      n * 10 ^ zeros * 10 := by
    rw [Nat.ofDigitChars_append, Nat.ofDigitChars_append, Nat.ofDigitChars_ten_toDigits,
      Nat.ofDigitChars_replicate_zero, Nat.mul_comm n, Nat.mul_comm _ 10]
    rfl
  refine ⟨.of_point hne hd fun c hc => isNumberChar_of_isDigit (hzero c hc), _,
    Numeral.decimal?_point hne hd hzero, ?_⟩
  rw [hvalue]
  calc (⟨n * 10 ^ zeros * 10, -1⟩ : Decimal).code
      = (⟨n * 10 ^ zeros, (0 : Nat)⟩ : Decimal).code := code_mul_ten _ _
    _ = (⟨n, zeros⟩ : Decimal).code := by
        rw [code_of_whole, code_of_whole, Nat.pow_zero, Nat.mul_one]

theorem marks_positionalText (d : Decimal) : Marks (d.positionalText true) d := by
  obtain ⟨n, exponent⟩ := d
  unfold positionalText
  dsimp only
  split
  case isTrue h =>
    obtain ⟨zeros, rfl⟩ : ∃ zeros : Nat, exponent = zeros := ⟨exponent.toNat, by omega⟩
    exact marks_whole n zeros
  case isFalse h =>
    obtain ⟨places, rfl⟩ : ∃ places : Nat, exponent = -places := ⟨(-exponent).toNat, by omega⟩
    rw [Int.neg_neg, Int.toNat_natCast]
    split
    case isTrue hinside =>
      obtain ⟨-, d', hread, hcode, -⟩ := denotes_inside hinside
      refine ⟨?_, d', hread, hcode⟩
      refine .of_point ?_ ?_ ?_
      · rw [← List.length_pos_iff, List.length_take]
        omega
      · intro c hc
        exact isDigit_toDigits c (List.mem_of_mem_take hc)
      · intro c hc
        exact isNumberChar_of_isDigit (isDigit_toDigits c (List.mem_of_mem_drop hc))
    case isFalse hbefore =>
      obtain ⟨-, d', hread, hcode, -⟩ := denotes_before (Nat.le_of_not_lt hbefore)
      refine ⟨?_, d', hread, hcode⟩
      refine .of_marked (List.cons_ne_nil '0' []) (List.forall_mem_singleton.mpr rfl) ?_
        ⟨'.', List.mem_cons_self, .inl rfl⟩
      refine List.forall_mem_cons.mpr ⟨rfl, fun c hc => ?_⟩
      exact isNumberChar_of_isDigit (isDigit_append isDigit_replicate isDigit_toDigits c hc)

theorem isNumberChar_mark (e : Int) :
    ∀ c ∈ 'e' :: (if 0 ≤ e then '+' else '-') :: Nat.toDigits 10 e.natAbs,
      isNumberChar c = true := by
  refine List.forall_mem_cons.mpr ⟨rfl, List.forall_mem_cons.mpr ⟨by split <;> rfl, ?_⟩⟩
  intro c hc
  exact isNumberChar_of_isDigit (isDigit_toDigits c hc)

theorem marks_exponentText (d : Decimal) : Marks d.exponentText d := by
  obtain ⟨n, exponent⟩ := d
  have hvalue := Nat.ofDigitChars_ten_toDigits (n := n)
  have hdigits := isDigit_toDigits (n := n)
  have hread := Numeral.exponent?_mark (lead ⟨n, exponent⟩)
  have hchars := isNumberChar_mark (lead ⟨n, exponent⟩)
  unfold exponentText
  dsimp only
  generalize hmark : 'e' :: (if 0 ≤ lead ⟨n, exponent⟩ then '+' else '-') ::
    Nat.toDigits 10 (lead ⟨n, exponent⟩).natAbs = mark at hread hchars
  have hlead : lead ⟨n, exponent⟩ = exponent + (Nat.toDigits 10 n).length - 1 := rfl
  have hmarked : ∃ c ∈ mark, c = '.' ∨ c = 'e' := ⟨'e', hmark ▸ List.mem_cons_self, .inr rfl⟩
  split
  case h_1 hnil => simp at hnil
  case h_2 first hfirst =>
    rw [hfirst] at hvalue hdigits hlead
    have hne := List.cons_ne_nil first []
    refine ⟨.of_marked hne hdigits hchars hmarked, ⟨n, exponent⟩, ?_, rfl⟩
    subst hmark
    have h := Numeral.decimal?_mark hne hdigits hread
    have hexponent : lead ⟨n, exponent⟩ = exponent := by
      rw [hlead, List.length_singleton, Int.natCast_one, Int.add_sub_cancel]
    rw [hvalue] at h
    exact h.trans (congrArg (fun e => some (⟨n, e⟩ : Decimal)) hexponent)
  case h_3 first others _ hall =>
    rw [hall] at hvalue hdigits hlead
    obtain ⟨hfirst, hothers⟩ := List.forall_mem_cons.mp hdigits
    have hne := List.cons_ne_nil first []
    have hone : ∀ c ∈ [first], c.isDigit = true := List.forall_mem_singleton.mpr hfirst
    refine ⟨.of_point hne hone ?_, ⟨n, exponent⟩, ?_, rfl⟩
    · intro c hc
      rcases List.mem_append.mp hc with hc | hc
      · exact isNumberChar_of_isDigit (hothers c hc)
      · exact hchars c hc
    · subst hmark
      have h := Numeral.decimal?_point_mark hne hone hothers hread
      have hexponent : lead ⟨n, exponent⟩ - (others.length : Int) = exponent := by
        rw [hlead, List.length_cons]
        omega
      rwa [List.singleton_append, List.singleton_append, hvalue, hexponent] at h

end Decimal

/-! ## The text of a number -/

namespace NumberFormat

/-- The JSON text of a magnitude without its sign. -/
def jsonMagnitude (code : Nat) : List Char :=
  let d := Decimal.shortest json.tie code
  if json.positional d.lead then d.positionalText json.keepsPoint else d.exponentText

theorem json_finiteText (negative : Bool) (code : Nat) :
    json.finiteText negative code = (if negative then ['-'] else []) ++ jsonMagnitude code := rfl

theorem marks_jsonMagnitude (code : Nat) :
    Decimal.Marks (jsonMagnitude code) (Decimal.shortest json.tie code) := by
  unfold jsonMagnitude
  dsimp only
  split
  · exact Decimal.marks_positionalText _
  · exact Decimal.marks_exponentText _

/-- The magnitude is read off its text. -/
theorem jsonMagnitude_inj {code code' : Nat} (h : jsonMagnitude code = jsonMagnitude code') :
    code = code' := by
  obtain ⟨-, d, hread, hcode⟩ := marks_jsonMagnitude code
  obtain ⟨-, d', hread', hcode'⟩ := marks_jsonMagnitude code'
  rw [Decimal.code_shortest] at hcode hcode'
  have hsame : d = d' := Option.some.inj (hread.symm.trans ((congrArg _ h).trans hread'))
  rw [← hcode, ← hcode', hsame]

/-- No text of a magnitude starts with a minus. -/
theorem jsonMagnitude_ne_minus {code : Nat} {rest : List Char} :
    jsonMagnitude code ≠ '-' :: rest := by
  intro h
  obtain ⟨first, others, hfirst, hdigit⟩ := (marks_jsonMagnitude code).1.digit
  obtain ⟨rfl, -⟩ := List.cons.inj (h.symm.trans hfirst)
  cases hdigit

theorem isNumberChar_finiteText (negative : Bool) (code : Nat) :
    ∀ c ∈ json.finiteText negative code, isNumberChar c = true := by
  rw [json_finiteText]
  refine List.forall_mem_append.mpr ⟨?_, (marks_jsonMagnitude code).1.chars⟩
  cases negative <;> simp [isNumberChar]

/-- The sign and the magnitude are read off the text of a finite value. -/
theorem json_finiteText_inj {negative negative' : Bool} {code code' : Nat}
    (h : json.finiteText negative code = json.finiteText negative' code') :
    negative = negative' ∧ code = code' := by
  rw [json_finiteText, json_finiteText] at h
  cases negative <;> cases negative'
  · exact ⟨rfl, jsonMagnitude_inj h⟩
  · exact absurd h jsonMagnitude_ne_minus
  · exact absurd h.symm jsonMagnitude_ne_minus
  · exact ⟨rfl, jsonMagnitude_inj (List.cons.inj h).2⟩

end NumberFormat

namespace Json

theorem digit_or_minus_of_mem_wholeText {n : Int} :
    ∀ c ∈ wholeText n, c.isDigit = true ∨ c = '-' := by
  intro c hc
  rcases List.mem_append.mp hc with hc | hc
  · split at hc
    · exact .inr (List.mem_singleton.mp hc)
    · cases hc
  · exact .inl (Decimal.isDigit_toDigits c hc)

theorem isNumberChar_wholeText (n : Int) : ∀ c ∈ wholeText n, isNumberChar c = true := by
  intro c hc
  rcases digit_or_minus_of_mem_wholeText c hc with hdigit | rfl
  · exact isNumberChar_of_isDigit hdigit
  · rfl

/-- A whole number is not written like one that is none. -/
theorem wholeText_ne_finiteText {n : Int} {negative : Bool} {code : Nat} :
    wholeText n ≠ NumberFormat.json.finiteText negative code := by
  intro h
  obtain ⟨c, hc, hmark⟩ := (NumberFormat.marks_jsonMagnitude code).1.marked
  have hmem : c ∈ wholeText n := h ▸ List.mem_append_right _ hc
  rcases digit_or_minus_of_mem_wholeText c hmem with hdigit | rfl
  · rcases hmark with rfl | rfl <;> cases hdigit
  · rcases hmark with hmark | hmark <;> cases hmark

/-- A whole number is read off its text. -/
theorem wholeText_inj {n n' : Int} (h : wholeText n = wholeText n') : n = n' := by
  have hminus : ∀ {k : Nat} {cs : List Char}, Nat.toDigits 10 k ≠ '-' :: cs := by
    intro k cs h
    have hdigit := Decimal.isDigit_toDigits '-' (h ▸ List.mem_cons_self)
    cases hdigit
  have habs : ∀ {k k' : Nat}, Nat.toDigits 10 k = Nat.toDigits 10 k' → k = k' := by
    intro k k' h
    rw [← Nat.ofDigitChars_ten_toDigits (n := k), h, Nat.ofDigitChars_ten_toDigits]
  unfold wholeText at h
  split at h <;> split at h
  · have := habs (List.cons.inj h).2
    omega
  · exact absurd h.symm hminus
  · exact absurd h hminus
  · have := habs h
    omega

end Json

end Bracework
