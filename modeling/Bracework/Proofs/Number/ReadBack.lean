/-
Numbers — a template numeral reads back as the value it was written for.

The layers of the writer each keep the code of the magnitude: a neighbour on a
decimal grid is chosen only if it reads back, the exact decimal needs no
rounding at all, and a decimal with a zero less at its end is the same number.
A decimal that has the code of a finite magnitude is neither so large nor so
small that the reader answers from its exponent, and the positional text of a
decimal has its digits and its places.
-/
import Bracework.Number.Layout
import Bracework.Number.Numeral
import Mathlib.Tactic.Positivity

namespace Bracework

/-! ## Rounding quotients -/

namespace Binary64

theorem roundHalfEven_mul_right {k : Nat} (hk : 0 < k) (num den : Nat) :
    roundHalfEven (num * k) (den * k) = roundHalfEven num den := by
  have hdiv : num * k / (den * k) = num / den := Nat.mul_div_mul_right num den hk
  have hmod : num * k % (den * k) = num % den * k := Nat.mul_mod_mul_right k num den
  unfold roundHalfEven
  simp only [hdiv, hmod, ← Nat.mul_assoc, Nat.mul_lt_mul_right hk]

theorem shift_eq (code : Nat) : shift code = code / 2 ^ 52 - 1 := rfl

theorem significand_eq (code : Nat) :
    significand code = if code < 2 ^ 52 then code else 2 ^ 52 + code % 2 ^ 52 := rfl

theorem units_eq (code : Nat) : units code = significand code * 2 ^ shift code := rfl

theorem nearestCode_eq (num den : Nat) : nearestCode num den = ((num / den).log2 - 52) * 2 ^ 52 +
    roundHalfEven num (den * 2 ^ ((num / den).log2 - 52)) := rfl

/-- Only the quotient matters, not how it is written. -/
theorem nearestCode_mul_right {k : Nat} (hk : 0 < k) (num den : Nat) :
    nearestCode (num * k) (den * k) = nearestCode num den := by
  rw [nearestCode_eq, nearestCode_eq, Nat.mul_div_mul_right num den hk, Nat.mul_right_comm,
    roundHalfEven_mul_right hk]

theorem roundHalfEven_of_dvd (num : Nat) {den : Nat} (hd : 0 < den) :
    roundHalfEven (num * den) den = num := by
  simp [roundHalfEven, hd]

/-- A magnitude is the nearest one to itself. -/
theorem nearestCode_units (code : Nat) : nearestCode (units code) 1 = code := by
  rw [nearestCode_eq, Nat.div_one, Nat.one_mul]
  rcases Nat.lt_or_ge code (2 ^ 52) with hlt | hge
  · have hunits : units code = code := by
      rw [units_eq, significand_eq, shift_eq, if_pos hlt, Nat.div_eq_of_lt hlt, Nat.zero_sub,
        Nat.pow_zero, Nat.mul_one]
    have hshift : code.log2 - 52 = 0 := by
      rcases Nat.eq_zero_or_pos code with rfl | hpos
      · rfl
      · have := (Nat.log2_lt (by omega)).mpr hlt
        omega
    rw [hunits, hshift]
    simpa using roundHalfEven_of_dvd code Nat.one_pos
  · have hsig : significand code = 2 ^ 52 + code % 2 ^ 52 := by
      rw [significand_eq, if_neg (by omega)]
    have hlog : (units code).log2 = 52 + shift code := by
      rw [units_eq, hsig]
      refine (Nat.log2_eq_iff (by positivity)).mpr ⟨?_, ?_⟩
      · rw [Nat.pow_add]
        exact Nat.mul_le_mul_right _ (Nat.le_add_right ..)
      · rw [Nat.add_right_comm, Nat.pow_add]
        exact Nat.mul_lt_mul_of_pos_right (by omega) (by positivity)
    rw [hlog, Nat.add_sub_cancel_left, units_eq, roundHalfEven_of_dvd _ (by positivity), hsig,
      shift_eq]
    omega

/-- The number of units of one, with an exponent that is not written out. -/
theorem one_eq_two_pow : ∃ n, n = 1074 ∧ one = 2 ^ n := by
  delta one
  generalize h : 1074 = n
  exact ⟨n, rfl, rfl⟩

/-- What is less than half a unit rounds to nothing. -/
theorem nearestCode_of_small {num den : Nat} (h : 2 * num < den) : nearestCode num den = 0 := by
  have hdiv : num / den = 0 := Nat.div_eq_of_lt (by omega)
  have hmod : num % den = num := Nat.mod_eq_of_lt (by omega)
  simp [nearestCode, hdiv, roundHalfEven, hmod, h]

/-- What is far above every finite magnitude has no code of one. -/
theorem le_nearestCode_of_large {num exponent : Nat} (he : 2099 ≤ exponent)
    (h : 2 ^ exponent ≤ num) : codes ≤ nearestCode num 1 := by
  have hpos : num ≠ 0 := Nat.ne_of_gt (Nat.lt_of_lt_of_le (Nat.two_pow_pos exponent) h)
  have hlog : exponent ≤ num.log2 := (Nat.le_log2 hpos).mpr h
  calc codes = 2047 * 2 ^ 52 := rfl
    _ ≤ (num.log2 - 52) * 2 ^ 52 := Nat.mul_le_mul_right _ (by omega)
    _ ≤ nearestCode num 1 := by
        rw [nearestCode_eq, Nat.div_one]
        exact Nat.le_add_right ..

end Binary64

/-! ## The code of a decimal -/

namespace Decimal

open Binary64

theorem code_of_digits_zero {exponent : Int} : (⟨0, exponent⟩ : Decimal).code = 0 := by
  have h (den : Nat) : nearestCode 0 den = 0 := by
    cases den <;> simp [nearestCode, roundHalfEven]
  unfold code
  split <;> simp [h]

/-- A decimal of places is a quotient by a power of ten. -/
theorem code_of_places (digits places : Nat) :
    (⟨digits, -places⟩ : Decimal).code = nearestCode (digits * one) (10 ^ places) := by
  unfold code
  dsimp only
  split
  · have hp : places = 0 := by omega
    subst hp
    simp
  · simp

/-- A decimal of a whole number. -/
theorem code_of_whole (digits zeros : Nat) :
    (⟨digits, zeros⟩ : Decimal).code = nearestCode (digits * 10 ^ zeros * one) 1 := by
  simp [code]

/-- A zero at the end of the digits may go into the exponent. -/
theorem code_mul_ten (digits : Nat) (exponent : Int) :
    (⟨digits * 10, exponent⟩ : Decimal).code = (⟨digits, exponent + 1⟩ : Decimal).code := by
  rcases Int.lt_or_le exponent 0 with hneg | hpos
  · obtain ⟨places, rfl⟩ : ∃ places : Nat, exponent = -(places + 1 : Nat) :=
      ⟨(-exponent - 1).toNat, by omega⟩
    have hnext : -((places + 1 : Nat) : Int) + 1 = -(places : Nat) := by omega
    rw [hnext, code_of_places, code_of_places, Nat.mul_right_comm, Nat.pow_succ,
      nearestCode_mul_right (by decide)]
  · obtain ⟨zeros, rfl⟩ : ∃ zeros : Nat, exponent = zeros := ⟨exponent.toNat, by omega⟩
    have hnext : ((zeros : Nat) : Int) + 1 = (zeros + 1 : Nat) := rfl
    rw [hnext, code_of_whole, code_of_whole, Nat.pow_succ, Nat.mul_assoc digits, Nat.mul_comm 10]

theorem code_strip (d : Decimal) : d.strip.code = d.code := by
  induction d using strip.induct with
  | case1 d h ih =>
      have hd : d = ⟨d.digits / 10 * 10, d.exponent⟩ := by
        rw [Nat.div_mul_cancel (Nat.dvd_of_mod_eq_zero h.2)]
      rw [strip, dif_pos h, ih, ← code_mul_ten, ← hd]
  | case2 d h => rw [strip, dif_neg h]

theorem nearestCode_units_shifted (code n : Nat) :
    nearestCode (units code * 5 ^ n * 2 ^ n) (10 ^ n) = code := by
  have hten : (10 : Nat) ^ n = 1 * (5 ^ n * 2 ^ n) := by rw [Nat.one_mul, ← Nat.mul_pow]
  rw [hten, Nat.mul_assoc]
  exact (nearestCode_mul_right (by positivity) _ _).trans (nearestCode_units code)

/-- The exact decimal of a magnitude has its code. -/
theorem code_exact (code : Nat) : (exact code).code = code := by
  obtain ⟨n, hn, hone⟩ := one_eq_two_pow
  have hexp : (-1074 : Int) = -(n : Nat) := by omega
  rw [exact, hexp, ← hn, code_of_places, hone]
  exact nearestCode_units_shifted code n

theorem code_of_neighbour? {tie : Tie} {code : Nat} {grid : Int} {d : Decimal}
    (h : neighbour? tie code grid = some d) : d.code = code := by
  unfold neighbour? at h
  generalize onGrid (units code) grid = quotient at h
  obtain ⟨num, den⟩ := quotient
  dsimp only at h
  split at h
  · rename_i hlow hhigh
    obtain rfl := Option.some.inj h
    have hnear : nearer tie num den = num / den ∨ nearer tie num den = num / den + 1 := by
      unfold nearer
      split
      · exact .inl rfl
      · split
        · exact .inr rfl
        · cases tie with
          | up => exact .inr rfl
          | even => dsimp only; omega
    rcases hnear with hn | hn
    · rw [hn]
      exact eq_of_beq hlow
    · rw [hn]
      exact eq_of_beq hhigh
  · rename_i hlow _
    exact Option.some.inj h ▸ eq_of_beq hlow
  · rename_i _ hhigh
    exact Option.some.inj h ▸ eq_of_beq hhigh
  · cases h

/-- The shortest decimal of a magnitude has its code. -/
theorem code_shortest (tie : Tie) (code : Nat) : (shortest tie code).code = code := by
  unfold shortest
  split
  · rename_i h0
    rw [h0, code_of_digits_zero]
  · dsimp only
    rw [code_strip]
    generalize hfound : (List.range 17).findSome? _ = found
    cases found with
    | none => exact code_exact code
    | some d =>
        obtain ⟨n, _, hn⟩ := List.exists_of_findSome?_eq_some hfound
        exact code_of_neighbour? hn

/-! ## The value of a decimal -/

theorem two_pow_le_ten_pow (n : Nat) : 2 ^ (3 * n) ≤ 10 ^ n := by
  rw [Nat.pow_mul]
  exact Nat.pow_le_pow_left (by decide) n

theorem isHuge_eq_false {d : Decimal} (h0 : d.digits ≠ 0) (h : d.code < codes) :
    d.isHuge = false := by
  refine decide_eq_false fun hlt => Nat.lt_irrefl _ (Nat.lt_of_le_of_lt ?_ h)
  obtain ⟨digits, exponent⟩ := d
  dsimp only at hlt
  obtain ⟨zeros, rfl⟩ : ∃ zeros : Nat, exponent = zeros := ⟨exponent.toNat, by omega⟩
  rw [code_of_whole]
  obtain ⟨n, hn, hone⟩ := one_eq_two_pow
  have hlarge : 2099 ≤ 3 * zeros + n := by omega
  apply le_nearestCode_of_large hlarge
  calc 2 ^ (3 * zeros + n) = 2 ^ (3 * zeros) * one := by rw [Nat.pow_add, hone]
    _ ≤ 10 ^ zeros * one := Nat.mul_le_mul_right _ (two_pow_le_ten_pow zeros)
    _ ≤ digits * 10 ^ zeros * one := by
        rw [Nat.mul_assoc]
        exact Nat.le_mul_of_pos_left _ (Nat.pos_of_ne_zero h0)

theorem two_mul_one_le : 2 * one ≤ 10 ^ 400 := by
  obtain ⟨n, hn, hone⟩ := one_eq_two_pow
  rw [hone, ← Nat.pow_succ']
  exact (Nat.pow_le_pow_right (by decide) (by omega)).trans (two_pow_le_ten_pow 400)

theorem two_mul_one_pos : 0 < 2 * one := by
  obtain ⟨n, _, hone⟩ := one_eq_two_pow
  rw [hone]
  positivity

theorem isTiny_eq_false {d : Decimal} (h : d.code ≠ 0) : d.isTiny = false := by
  refine decide_eq_false fun hlt => h ?_
  obtain ⟨digits, exponent⟩ := d
  dsimp only at hlt
  obtain ⟨places, rfl⟩ : ∃ places : Nat, exponent = -places := ⟨(-exponent).toNat, by omega⟩
  rw [code_of_places]
  apply nearestCode_of_small
  have hdigits : digits < 2 ^ (digits.log2 + 1) := Nat.lt_log2_self
  calc 2 * (digits * one) = digits * (2 * one) := Nat.mul_left_comm ..
    _ < 2 ^ (digits.log2 + 1) * (2 * one) :=
        Nat.mul_lt_mul_of_pos_right hdigits two_mul_one_pos
    _ ≤ 10 ^ (digits.log2 + 1) * 10 ^ 400 :=
        Nat.mul_le_mul (Nat.pow_le_pow_left (by decide) _) two_mul_one_le
    _ ≤ 10 ^ places := by
        rw [← Nat.pow_add]
        exact Nat.pow_le_pow_right (by decide) (by omega)

/-- A decimal with the code of a finite magnitude denotes it. -/
theorem toBinary64_eq_finite {d : Decimal} {code : Fin codes} (negative : Bool)
    (h : d.code = code.val) (hz : code.val = 0 → d.digits = 0) :
    d.toBinary64 negative = .finite negative code := by
  rcases Nat.eq_zero_or_pos code.val with h0 | hpos
  · rw [toBinary64, if_pos (.inl (hz h0)), zero]
    congr 1
    exact Fin.ext h0.symm
  · have hd : d.digits ≠ 0 := by
      rintro hd
      obtain ⟨digits, exponent⟩ := d
      subst hd
      rw [code_of_digits_zero] at h
      omega
    rw [toBinary64, if_neg (by simp [hd, isTiny_eq_false (d := d) (by omega)]),
      isHuge_eq_false hd (h ▸ code.isLt), if_neg (by decide), ofCode, dif_pos (h ▸ code.isLt)]
    congr 1
    exact Fin.ext h

end Decimal

/-! ## The text of a decimal -/

namespace Numeral

theorem digits_append {ds : List Char} (rest : List Char) (hd : ∀ c ∈ ds, c.isDigit = true)
    (hr : ∀ c ∈ rest.head?, c.isDigit = false) : digits (ds ++ rest) = (ds, rest) := by
  have hrest : rest.takeWhile Char.isDigit = [] ∧ rest.dropWhile Char.isDigit = rest := by
    cases rest with
    | nil => exact ⟨rfl, rfl⟩
    | cons c cs => simp [hr c rfl]
  rw [digits, List.takeWhile_append_of_pos hd, List.dropWhile_append_of_pos hd, hrest.1, hrest.2,
    List.append_nil]

theorem decimal?_whole {whole : List Char} (hne : whole ≠ []) (hw : ∀ c ∈ whole, c.isDigit = true) :
    decimal? whole = some ⟨Nat.ofDigitChars 10 whole 0, 0⟩ := by
  have hd := digits_append [] hw (by simp)
  rw [List.append_nil] at hd
  simp [decimal?, hd, fraction, hne, exponent?]

theorem decimal?_point {whole places : List Char} (hne : whole ≠ [])
    (hw : ∀ c ∈ whole, c.isDigit = true) (hp : ∀ c ∈ places, c.isDigit = true) :
    decimal? (whole ++ '.' :: places) =
      some ⟨Nat.ofDigitChars 10 (whole ++ places) 0, -(places.length : Nat)⟩ := by
  have hwhole := digits_append ('.' :: places) hw (by simp)
  have hplaces := digits_append [] hp (by simp)
  rw [List.append_nil] at hplaces
  simp [decimal?, hwhole, fraction, hplaces, hne, exponent?]

end Numeral

/-- A text that can only be a numeral: a digit, then digits and points. -/
def IsNumeralText (text : List Char) : Prop :=
  ∃ first others, text = first :: others ∧ first.isDigit = true ∧
    ∀ c ∈ others, (c.isDigit || c == '.') = true

namespace IsNumeralText

theorem of_whole {whole : List Char} (hne : whole ≠ []) (hw : ∀ c ∈ whole, c.isDigit = true) :
    IsNumeralText whole := by
  cases whole with
  | nil => exact absurd rfl hne
  | cons first others =>
      refine ⟨first, others, rfl, hw first (.head _), fun c hc => ?_⟩
      rw [hw c (.tail _ hc), Bool.true_or]

theorem of_point {whole places : List Char} (hne : whole ≠ [])
    (hw : ∀ c ∈ whole, c.isDigit = true) (hp : ∀ c ∈ places, c.isDigit = true) :
    IsNumeralText (whole ++ '.' :: places) := by
  obtain ⟨first, others, rfl, hf, ho⟩ := of_whole hne hw
  refine ⟨first, others ++ '.' :: places, rfl, hf, fun c hc => ?_⟩
  rcases List.mem_append.mp hc with hc | hc
  · exact ho c hc
  · cases hc with
    | head => rfl
    | tail _ hc => rw [hp c hc, Bool.true_or]

end IsNumeralText

namespace Decimal

/-- A text is a numeral and is read as a decimal of the same number. -/
def Denotes (text : List Char) (d : Decimal) : Prop :=
  IsNumeralText text ∧ ∃ d', Numeral.decimal? text = some d' ∧ d'.code = d.code ∧
    (d.digits = 0 → d'.digits = 0)

theorem isDigit_toDigits {n : Nat} : ∀ c ∈ Nat.toDigits 10 n, c.isDigit = true :=
  fun _ hc => Nat.isDigit_of_mem_toDigits (by decide) (by decide) hc

theorem isDigit_replicate {n : Nat} : ∀ c ∈ List.replicate n '0', c.isDigit = true := by
  intro c hc
  obtain rfl := List.eq_of_mem_replicate hc
  rfl

theorem isDigit_append {as bs : List Char} (ha : ∀ c ∈ as, c.isDigit = true)
    (hb : ∀ c ∈ bs, c.isDigit = true) : ∀ c ∈ as ++ bs, c.isDigit = true :=
  fun c hc => (List.mem_append.mp hc).elim (ha c) (hb c)

theorem denotes_whole (n zeros : Nat) :
    Denotes (Nat.toDigits 10 n ++ List.replicate zeros '0') ⟨n, zeros⟩ := by
  have hne : Nat.toDigits 10 n ++ List.replicate zeros '0' ≠ [] := by simp
  have hd := isDigit_append (isDigit_toDigits (n := n)) (isDigit_replicate (n := zeros))
  have hvalue : Nat.ofDigitChars 10 (Nat.toDigits 10 n ++ List.replicate zeros '0') 0 =
      n * 10 ^ zeros := by
    rw [Nat.ofDigitChars_append, Nat.ofDigitChars_ten_toDigits, Nat.ofDigitChars_replicate_zero,
      Nat.mul_comm]
  refine ⟨.of_whole hne hd, _, Numeral.decimal?_whole hne hd, ?_, ?_⟩
  · rw [hvalue, code_of_whole]
    exact (code_of_whole _ 0).trans (by rw [Nat.pow_zero, Nat.mul_one])
  · intro h0
    rw [hvalue]
    simp_all

theorem denotes_point {whole places : List Char} (hne : whole ≠ [])
    (hw : ∀ c ∈ whole, c.isDigit = true) (hp : ∀ c ∈ places, c.isDigit = true) :
    Denotes (whole ++ '.' :: places)
      ⟨Nat.ofDigitChars 10 (whole ++ places) 0, -(places.length : Nat)⟩ :=
  ⟨.of_point hne hw hp, _, Numeral.decimal?_point hne hw hp, rfl, id⟩

/-- Where the point stands inside the digits. -/
theorem denotes_inside {n places : Nat} (h : places < (Nat.toDigits 10 n).length) :
    Denotes ((Nat.toDigits 10 n).take ((Nat.toDigits 10 n).length - places) ++
      '.' :: (Nat.toDigits 10 n).drop ((Nat.toDigits 10 n).length - places)) ⟨n, -places⟩ := by
  have hne : (Nat.toDigits 10 n).take ((Nat.toDigits 10 n).length - places) ≠ [] := by
    rw [← List.length_pos_iff, List.length_take]
    omega
  have hp : ∀ c ∈ (Nat.toDigits 10 n).drop ((Nat.toDigits 10 n).length - places),
      c.isDigit = true := fun c hc => isDigit_toDigits c (List.mem_of_mem_drop hc)
  have hd := denotes_point hne (fun c hc => isDigit_toDigits c (List.mem_of_mem_take hc)) hp
  rwa [List.take_append_drop, Nat.ofDigitChars_ten_toDigits, List.length_drop,
    Nat.sub_sub_self (Nat.le_of_lt h)] at hd

/-- Where the point stands before the digits. -/
theorem denotes_before {n places : Nat} (h : (Nat.toDigits 10 n).length ≤ places) :
    Denotes ('0' :: '.' :: (List.replicate (places - (Nat.toDigits 10 n).length) '0' ++
      Nat.toDigits 10 n)) ⟨n, -places⟩ := by
  have hzero : ∀ c ∈ ['0'], c.isDigit = true := by simp
  have hd := denotes_point (by simp) hzero (isDigit_append
    (isDigit_replicate (n := places - (Nat.toDigits 10 n).length)) (isDigit_toDigits (n := n)))
  rw [Nat.ofDigitChars_append, Nat.ofDigitChars_append, Nat.ofDigitChars_replicate_zero,
    List.length_append, List.length_replicate, Nat.sub_add_cancel h] at hd
  simpa [Nat.ofDigitChars_cons] using hd

theorem denotes_positionalText (d : Decimal) : Denotes (d.positionalText false) d := by
  obtain ⟨n, exponent⟩ := d
  unfold positionalText
  dsimp only
  split
  · obtain ⟨zeros, rfl⟩ : ∃ zeros : Nat, exponent = zeros := ⟨exponent.toNat, by omega⟩
    rw [Int.toNat_natCast, if_neg (by decide), List.append_nil]
    exact denotes_whole n zeros
  · obtain ⟨places, rfl⟩ : ∃ places : Nat, exponent = -places := ⟨(-exponent).toNat, by omega⟩
    rw [Int.neg_neg, Int.toNat_natCast]
    split
    · rename_i h
      exact denotes_inside h
    · rename_i h
      exact denotes_before (Nat.le_of_not_lt h)

end Decimal

/-! ## Template numerals -/

namespace Binary64

/-- The text of a finite magnitude without its sign. -/
def magnitudeText (code : Nat) : List Char := (Decimal.shortest .up code).positionalText false

theorem numeral_finite (negative : Bool) (code : Fin codes) :
    (finite negative code).numeral =
      (if negative then ['-'] else []) ++ magnitudeText code.val := rfl

theorem isNumeralText_magnitude (code : Nat) : IsNumeralText (magnitudeText code) :=
  (Decimal.denotes_positionalText _).1

end Binary64

namespace Numeral

theorem sign_of_isDigit {first : Char} {others : List Char} (h : first.isDigit = true) :
    sign (first :: others) = (false, first :: others) := by
  unfold sign
  split
  · rename_i heq
    obtain ⟨rfl, -⟩ := List.cons.inj heq
    cases h
  · rename_i heq
    obtain ⟨rfl, -⟩ := List.cons.inj heq
    cases h
  · rfl

theorem toLower_of_isDigit {c : Char} (h : c.isDigit = true) : c.toLower = c := by
  have hle : c.toNat ≤ '9'.toNat := (Char.isDigit_iff_toNat.mp h).2
  refine dif_neg fun hup => ?_
  have hge : 'A'.toNat ≤ c.toNat := UInt32.le_iff_toNat_le.mp hup.1
  exact absurd (hge.trans hle) (by decide)

/-- A text that starts with a digit is not the name of a value. -/
theorem map_toLower_ne {first letter : Char} {others name : List Char} (h : first.isDigit = true)
    (hl : letter.isDigit = false) :
    String.ofList ((first :: others).map Char.toLower) ≠ String.ofList (letter :: name) := by
  intro heq
  have hlist := congrArg String.toList heq
  rw [String.toList_ofList, String.toList_ofList, List.map_cons, toLower_of_isDigit h] at hlist
  rw [(List.cons.inj hlist).1, hl] at h
  cases h

theorem read?_of_sign {text rest : List Char} {negative : Bool} (hs : sign text = (negative, rest))
    (hr : IsNumeralText rest) :
    read? text = (decimal? rest).map (·.toBinary64 negative) := by
  obtain ⟨first, others, rfl, hf, -⟩ := hr
  unfold read?
  rw [hs]
  dsimp only
  rw [if_neg (not_or.mpr ⟨map_toLower_ne hf (by decide), map_toLower_ne hf (by decide)⟩),
    if_neg (map_toLower_ne hf (by decide))]

end Numeral

/-- A template numeral reads back as the value it was written for. -/
theorem Numeral.read?_numeral (negative : Bool) (code : Fin Binary64.codes) :
    Numeral.read? (Binary64.finite negative code).numeral = some (.finite negative code) := by
  obtain ⟨htext, d, hd, hcode, hzero⟩ :=
    Decimal.denotes_positionalText (Decimal.shortest .up code.val)
  have hs : sign (Binary64.finite negative code).numeral =
      (negative, Binary64.magnitudeText code.val) := by
    rw [Binary64.numeral_finite]
    cases negative with
    | true => rfl
    | false =>
        obtain ⟨first, others, ht, hf, -⟩ := Binary64.isNumeralText_magnitude code.val
        rw [ht]
        exact sign_of_isDigit hf
  have hz : code.val = 0 → d.digits = 0 := fun h0 =>
    hzero (by rw [h0, Decimal.shortest, if_pos rfl])
  have hvalue := Decimal.toBinary64_eq_finite negative (hcode.trans (Decimal.code_shortest _ _)) hz
  have hmagnitude : decimal? (Binary64.magnitudeText code.val) = some d := hd
  rw [read?_of_sign hs htext, hmagnitude, Option.map_some, hvalue]

end Bracework
