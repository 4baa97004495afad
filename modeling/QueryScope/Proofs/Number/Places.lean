import Mathlib.Data.List.TakeWhile
import QueryScope.Number.Decimal
import QueryScope.Number.Reading
import QueryScope.Proofs.Identifier
import QueryScope.Proofs.Number.Rounding

/-!
# Numbers with two places and with none

A whole number is written as its digits, and a number with two places as the nearest number of
hundredths. Both texts are read as the double nearest to what they say.
-/

namespace QueryScope

namespace Double

variable {m k : Nat} {e : Int} {h : CanonicalForm m e} {s : Bool} {whole fraction : List Char}

/-! ## Whole numbers -/

theorem isIntegral_iff :
    (Double.finite s m e h).isIntegral = true ↔ ∃ k : Nat, valueOf m e = k := by
  cases e with
  | ofNat j =>
    refine ⟨fun _ => ⟨m * 2 ^ j, ?_⟩, fun _ => rfl⟩
    rw [valueOf, Int.ofNat_eq_natCast, zpow_natCast]
    push_cast
    rfl
  | negSucc j =>
    have hpow : ((2 ^ (j + 1) : Nat) : ℚ) ≠ 0 := by positivity
    have hvalue (k : Nat) : valueOf m (.negSucc j) = k ↔ m = k * 2 ^ (j + 1) := by
      rw [valueOf, zpow_negSucc, ← div_eq_mul_inv]
      rw [show (2 : ℚ) ^ (j + 1) = (2 ^ (j + 1) : Nat) by push_cast; rfl, div_eq_iff hpow]
      exact_mod_cast Iff.rfl
    simp only [isIntegral, Nat.one_shiftLeft, beq_iff_eq, hvalue]
    constructor
    · intro h
      exact ⟨m / 2 ^ (j + 1), (Nat.div_mul_cancel (Nat.dvd_of_mod_eq_zero h)).symm⟩
    · rintro ⟨k, rfl⟩
      exact Nat.mul_mod_left k _

/-- A number that is not whole is below the least full mantissa. -/
theorem valueOf_lt_of_not_integral (hc : CanonicalForm m e) (h : ∀ k : Nat, valueOf m e ≠ k) :
    valueOf m e < fullMantissa := by
  have hneg : e < 0 := by
    by_contra hnonneg
    obtain ⟨j, rfl⟩ := Int.eq_ofNat_of_zero_le (not_lt.mp hnonneg)
    exact h (m * 2 ^ j) (by rw [valueOf, zpow_natCast]; push_cast; rfl)
  calc valueOf m e < 2 ^ (e + 53) := valueOf_lt hc
    _ ≤ 2 ^ (52 : Int) := zpow_le_zpow_right₀ one_le_two (by omega)
    _ = fullMantissa := by
      rw [fullMantissa_eq]
      norm_num

/-- A whole number with no more bits than a mantissa is a double. -/
theorem exists_valueOf_eq (hk : k < 2 * fullMantissa) :
    ∃ m e, CanonicalForm m e ∧ valueOf m e = k := by
  rcases Nat.eq_zero_or_pos k with rfl | hpos
  · exact ⟨0, -1074, by decide, by rw [valueOf, Nat.cast_zero, zero_mul]⟩
  have hlow : 2 ^ Nat.log2 k ≤ k := Nat.log2_self_le hpos.ne'
  have hhigh : k < 2 ^ (Nat.log2 k + 1) := Nat.lt_log2_self
  have hlog : Nat.log2 k ≤ 52 := by
    rw [fullMantissa_eq] at hk
    have h : 2 ^ Nat.log2 k < 2 ^ 53 := by omega
    have := (Nat.pow_lt_pow_iff_right (by decide)).mp h
    omega
  obtain ⟨j, hj⟩ := Nat.exists_eq_add_of_le hlog
  have hfull : fullMantissa = 2 ^ Nat.log2 k * 2 ^ j := by
    rw [fullMantissa_eq, hj, Nat.pow_add]
  refine ⟨k * 2 ^ j, -(j : Int), ?_, ?_⟩
  · have hle : fullMantissa ≤ k * 2 ^ j := by
      rw [hfull]
      exact Nat.mul_le_mul_right _ hlow
    have hlt : k * 2 ^ j < 2 * fullMantissa := by
      rw [hfull, ← Nat.mul_assoc, ← Nat.pow_succ']
      exact Nat.mul_lt_mul_of_pos_right hhigh (Nat.two_pow_pos j)
    exact Or.inr ⟨by omega, by omega, hle, hlt⟩
  · rw [valueOf, zpow_neg, zpow_natCast]
    push_cast
    rw [mul_assoc, mul_inv_cancel₀ (by positivity), mul_one]

/-! ## Writing -/

/-- The nearest number of hundredths. -/
def hundredths (mantissa : Nat) (exponent : Int) : Nat :=
  roundDiv .toEven ((ratio mantissa exponent).1 * 100) (ratio mantissa exponent).2

/-- A number of hundredths, as it is written with two places. -/
def placesText (hundredths : Nat) : List Char :=
  Nat.toDigits 10 (hundredths / 100) ++
    ['.', Nat.digitChar (hundredths % 100 / 10), Nat.digitChar (hundredths % 10)]

theorem hundredths_eq_iff {n : Nat} :
    hundredths m e = n ↔ IsNearestInteger (valueOf m e * 100) n := by
  obtain ⟨hpos, hvalue⟩ := ratio_spec m e
  have hscaled : (((ratio m e).1 * 100 : Nat) : ℚ) / (ratio m e).2 = valueOf m e * 100 := by
    rw [← hvalue]
    push_cast
    ring
  rw [hundredths, roundDiv_eq_iff hpos, hscaled]

theorem toFixed_zero (hk : valueOf m e = k) :
    ((Double.finite false m e h).toFixed 0).toList = Nat.toDigits 10 k := by
  obtain ⟨hpos, hvalue⟩ := ratio_spec m e
  have hround : roundDiv .toEven (ratio m e).1 (ratio m e).2 = k :=
    roundDiv_of_eq_natCast .toEven hpos (hvalue.trans hk)
  simp [toFixed, hround]

/-- Two digits of the places, with a zero in front of a single one. -/
theorem padded_eq {r : Nat} (hr : r < 100) :
    List.replicate (2 - (Nat.toDigits 10 r).length) '0' ++ Nat.toDigits 10 r =
      [Nat.digitChar (r / 10), Nat.digitChar (r % 10)] := by
  by_cases hsingle : r < 10
  · rw [Nat.toDigits_of_lt_base hsingle, Nat.div_eq_of_lt hsingle, Nat.mod_eq_of_lt hsingle]
    rfl
  · rw [Nat.toDigits_of_base_le (by decide) (not_lt.mp hsingle),
      Nat.toDigits_of_lt_base (by omega)]
    rfl

theorem toFixed_two :
    ((Double.finite false m e h).toFixed 2).toList = placesText (hundredths m e) := by
  have hround : roundDiv .toEven ((ratio m e).1 * 100) (ratio m e).2 = hundredths m e := rfl
  have hmod : hundredths m e % 100 % 10 = hundredths m e % 10 :=
    Nat.mod_mod_of_dvd _ (by decide)
  have hpadded := padded_eq (Nat.mod_lt (hundredths m e) (show 0 < 100 by decide))
  rw [hmod] at hpadded
  simp [toFixed, hround, hpadded, placesText]

/-! ## Reading -/

/-- What starts with a digit or a point is no word and has no sign. -/
theorem ofText?_of_isDigit_or_point {c : Char} {tail : List Char}
    (hc : c.isDigit = true ∨ c = '.') :
    ofText? (c :: tail) = (readUnsigned false (c :: tail)).map DecimalLiteral.toDouble := by
  have hfirst : c ≠ '-' ∧ c ≠ '+' ∧ c.toLower ≠ 'i' ∧ c.toLower ≠ 'n' := by
    rcases hc with hdigit | rfl
    · obtain ⟨d, hd, rfl⟩ := exists_eq_digitChar hdigit
      have h : ∀ d < 10, Nat.digitChar d ≠ '-' ∧ Nat.digitChar d ≠ '+' ∧
          (Nat.digitChar d).toLower ≠ 'i' ∧ (Nat.digitChar d).toLower ≠ 'n' := by decide
      exact h d hd
    · decide
  obtain ⟨hminus, hplus, hi, hn⟩ := hfirst
  have hword {first : Char} {rest : List Char} (hne : c.toLower ≠ first) :
      (c :: tail).map Char.toLower ≠ first :: rest := by
    rw [List.map_cons]
    exact fun heq => hne (List.cons.inj heq).1
  have hinf : ¬((c :: tail).map Char.toLower = "inf".toList ∨
      (c :: tail).map Char.toLower = "infinity".toList) := by
    rintro (heq | heq)
    · exact hword hi heq
    · exact hword hi heq
  have hnan : (c :: tail).map Char.toLower ≠ "nan".toList := hword hn
  unfold ofText?
  split
  next negative body hbody =>
    split at hbody
    next heq => exact absurd (List.cons.inj heq).1 hminus
    next heq => exact absurd (List.cons.inj heq).1 hplus
    next =>
      obtain ⟨rfl, rfl⟩ := Prod.mk.inj hbody
      rw [if_neg hinf, if_neg hnan]

theorem readUnsigned_digits (hne : whole ≠ []) (hw : ∀ c ∈ whole, c.isDigit = true) :
    readUnsigned false whole = some { whole } := by
  have hdrop : whole.dropWhile Char.isDigit = [] := List.dropWhile_eq_nil_iff.mpr hw
  have htake : whole.takeWhile Char.isDigit = whole := List.takeWhile_eq_self_iff.mpr hw
  simp [readUnsigned, hdrop, htake, readExponent, hne]

theorem readUnsigned_places (hne : whole ≠ [] ∨ fraction ≠ []) (hw : ∀ c ∈ whole, c.isDigit = true)
    (hf : ∀ c ∈ fraction, c.isDigit = true) :
    readUnsigned false (whole ++ '.' :: fraction) = some { whole, fraction } := by
  have hdot : ('.' : Char).isDigit = false := by decide
  have hdrop : (whole ++ '.' :: fraction).dropWhile Char.isDigit = '.' :: fraction :=
    dropWhile_append_cons hw hdot
  have htake : (whole ++ '.' :: fraction).takeWhile Char.isDigit = whole :=
    takeWhile_append_cons hw hdot
  have hfdrop : fraction.dropWhile Char.isDigit = [] := List.dropWhile_eq_nil_iff.mpr hf
  have hftake : fraction.takeWhile Char.isDigit = fraction := List.takeWhile_eq_self_iff.mpr hf
  have hempty : ¬(whole = [] ∧ fraction = []) := by
    rintro ⟨rfl, rfl⟩
    simp at hne
  simp [readUnsigned, hdrop, htake, hfdrop, hftake, readExponent, hempty]

theorem ofText?_digits (hne : whole ≠ []) (hw : ∀ c ∈ whole, c.isDigit = true) :
    ofText? whole = some (ofDecimal false (digitsValue whole) 0) := by
  have hread := readUnsigned_digits hne hw
  obtain ⟨c, tail, rfl⟩ := List.exists_cons_of_ne_nil hne
  rw [ofText?_of_isDigit_or_point (Or.inl (hw c List.mem_cons_self)), hread]
  simp [DecimalLiteral.toDouble, digitsValue]

theorem ofText?_places (hne : whole ≠ [] ∨ fraction ≠ []) (hw : ∀ c ∈ whole, c.isDigit = true)
    (hf : ∀ c ∈ fraction, c.isDigit = true) : ofText? (whole ++ '.' :: fraction) =
      some (ofDecimal false (digitsValue (whole ++ fraction)) (-fraction.length)) := by
  have hread := readUnsigned_places hne hw hf
  have hunsigned : ofText? (whole ++ '.' :: fraction) =
      (readUnsigned false (whole ++ '.' :: fraction)).map DecimalLiteral.toDouble := by
    cases whole with
    | nil => exact ofText?_of_isDigit_or_point (Or.inr rfl)
    | cons c tail => exact ofText?_of_isDigit_or_point (Or.inl (hw c List.mem_cons_self))
  rw [hunsigned, hread]
  simp [DecimalLiteral.toDouble, digitsValue]

/-- Places behind the point divide by a power of ten. The numbers that are answered without it are
so small that they would be rounded to zero. -/
theorem ofDecimal_neg (n k : Nat) : ofDecimal false n (-k) = ofRatio false n (10 ^ k) := by
  by_cases hn : n = 0
  · subst hn
    rfl
  have hlarge : ¬(400 < -(k : Int)) := by omega
  by_cases hsmall : -(k : Int) + (Nat.log2 n : Int) + 1 < -400
  · rw [ofDecimal.eq_def, if_neg hn, if_neg hlarge, if_pos hsmall]
    refine (ofRatio_of_lt_half false (by positivity) ?_).symm
    obtain ⟨j, rfl⟩ : ∃ j, k = Nat.log2 n + 1 + j := Nat.exists_eq_add_of_le (by omega)
    have hbits : (n : ℚ) < 2 ^ (Nat.log2 n + 1) := by
      exact_mod_cast Nat.lt_log2_self (n := n)
    have hrest : (2 : ℚ) ^ (3 * j) ≤ 10 ^ j := by
      rw [pow_mul]
      exact pow_le_pow_left₀ (by norm_num) (by norm_num) j
    have hpow : (2 : ℚ) ^ (Nat.log2 n + 1) ≤ 10 ^ (Nat.log2 n + 1) :=
      pow_le_pow_left₀ (by norm_num) (by norm_num) _
    calc (n : ℚ) / (10 ^ (Nat.log2 n + 1 + j) : Nat)
        ≤ n / (2 ^ (Nat.log2 n + 1) * 2 ^ (3 * j)) := by
          rw [Nat.cast_pow, pow_add]
          push_cast
          gcongr
      _ < 2 ^ (Nat.log2 n + 1) / (2 ^ (Nat.log2 n + 1) * 2 ^ (3 * j)) := by gcongr
      _ = 2 ^ (-(3 * j : Nat) : Int) := by
        rw [zpow_neg, zpow_natCast]
        field_simp
      _ ≤ 2 ^ (-1075 : Int) := zpow_le_zpow_right₀ one_le_two (by omega)
  · rw [ofDecimal.eq_def, if_neg hn, if_neg hlarge, if_neg hsmall]
    cases k with
    | zero => exact congrArg (ofRatio false · 1) (Nat.mul_one n)
    | succ k => rfl

theorem ofText?_toDigits (k : Nat) : ofText? (Nat.toDigits 10 k) = some (ofRatio false k 1) := by
  rw [ofText?_digits Nat.toDigits_ne_nil (isDigit_toDigits k), digitsValue_toDigits]
  exact congrArg some (ofDecimal_neg k 0)

theorem isDigit_digitChar {d : Nat} (hd : d < 10) : (Nat.digitChar d).isDigit = true := by
  have h : ∀ d < 10, (Nat.digitChar d).isDigit = true := by decide
  exact h d hd

theorem ofText?_placesText (n : Nat) : ofText? (placesText n) = some (ofRatio false n 100) := by
  have htens : n % 100 / 10 < 10 := by omega
  have hones : n % 10 < 10 := Nat.mod_lt n (by decide)
  have hwhole := isDigit_toDigits (n / 100)
  have hfraction : ∀ c ∈ [Nat.digitChar (n % 100 / 10), Nat.digitChar (n % 10)],
      c.isDigit = true := by
    simp [isDigit_digitChar htens, isDigit_digitChar hones]
  have hvalue : digitsValue (Nat.toDigits 10 (n / 100) ++
      [Nat.digitChar (n % 100 / 10), Nat.digitChar (n % 10)]) = n := by
    rw [digitsValue_eq, Nat.ofDigitChars_append, Nat.ofDigitChars_ten_toDigits,
      Nat.ofDigitChars_cons_digitChar_of_lt_ten htens,
      Nat.ofDigitChars_cons_digitChar_of_lt_ten hones, Nat.ofDigitChars_nil]
    omega
  rw [placesText, ofText?_places (Or.inl Nat.toDigits_ne_nil) hwhole hfraction, hvalue]
  exact congrArg some (ofDecimal_neg n 2)

theorem negative_of_readExponent {l l' : DecimalLiteral} {text : List Char}
    (h : readExponent l text = some l') : l'.negative = l.negative := by
  cases text with
  | nil =>
    cases h
    rfl
  | cons c rest =>
    simp only [readExponent] at h
    split at h
    · split at h <;> split at h <;> cases h <;> rfl
    · cases h

theorem negative_of_readUnsigned {negative : Bool} {text : List Char} {l : DecimalLiteral}
    (h : readUnsigned negative text = some l) : l.negative = negative := by
  have hparts {l' : DecimalLiteral} {whole fraction rest : List Char}
      (h : (if whole = [] ∧ fraction = [] then none else readExponent l' rest) = some l) :
      l.negative = l'.negative := by
    split at h
    · cases h
    · exact negative_of_readExponent h
  simp only [readUnsigned] at h
  split at h
  · exact hparts h
  · exact hparts h

theorem sign_of_ofDecimal_eq {negative : Bool} {n : Nat} {exponent : Int}
    (heq : ofDecimal negative n exponent = .finite s m e h) : s = negative := by
  rw [ofDecimal.eq_def] at heq
  split at heq
  · cases heq
    rfl
  split at heq
  · cases heq
  split at heq
  · cases heq
    rfl
  split at heq
  · exact sign_of_ofRatio_eq heq
  · exact sign_of_ofRatio_eq heq

/-- What is read without a minus sign is not negative. -/
theorem sign_of_ofText? {text : List Char} (hminus : text.head? ≠ some '-')
    (heq : ofText? text = some (.finite s m e h)) : s = false := by
  unfold ofText? at heq
  split at heq
  next negative body hbody =>
    have hnegative : negative = false := by
      split at hbody
      · exact absurd rfl hminus
      · exact (Prod.mk.inj hbody).1.symm
      · exact (Prod.mk.inj hbody).1.symm
    simp only at heq
    split at heq
    · cases heq
    split at heq
    · cases heq
    · obtain ⟨l, hl, hdouble⟩ := Option.map_eq_some_iff.mp heq
      rw [sign_of_ofDecimal_eq hdouble, negative_of_readUnsigned hl, hnegative]

/-! ## Writing what was read -/

/-- What is written with two places is below the doubles that need no places. -/
theorem hundredths_div_le (hc : CanonicalForm m e) (h : ∀ k : Nat, valueOf m e ≠ k) :
    (hundredths m e : ℚ) / 100 ≤ fullMantissa + 1 / 2 := by
  have hnearest := hundredths_eq_iff.mp (rfl : hundredths m e = hundredths m e)
  have hbelow := valueOf_lt_of_not_integral hc h
  have hnear := (abs_le.mp
    (show |valueOf m e * 100 - hundredths m e| ≤ 1 / 2 by linarith [hnearest.near])).1
  rw [div_le_iff₀ (by norm_num)]
  linarith

/-- Only a whole number of hundreds is so near to a whole number of hundredths. -/
theorem mod_eq_zero_of_isNearestInteger {n : Nat} (h : IsNearestInteger ((k : ℚ) * 100) n) :
    n % 100 = 0 := by
  have hnear : |(k : ℤ) * 100 - n| < 1 := by
    have h : |(k : ℚ) * 100 - n| < 1 := by linarith [h.near]
    exact_mod_cast h
  have hequal := Int.abs_lt_one_iff.mp hnear
  omega

/-- A fraction that is written with two places is read as a finite double. When both places are
zeros, that is the whole number in front of them; otherwise it is again a fraction, which is written
with the same places. -/
theorem exists_ofRatio_hundredths (hc : CanonicalForm m e) (h : ∀ k : Nat, valueOf m e ≠ k) :
    ∃ m' e', ∃ h' : CanonicalForm m' e',
      ofRatio false (hundredths m e) 100 = .finite false m' e' h' ∧
        (hundredths m e % 100 = 0 → valueOf m' e' = (hundredths m e / 100 : Nat)) ∧
          (hundredths m e % 100 ≠ 0 →
            (∀ k : Nat, valueOf m' e' ≠ k) ∧ hundredths m' e' = hundredths m e) := by
  have hnearest : IsNearestInteger (valueOf m e * 100) (hundredths m e) :=
    hundredths_eq_iff.mp rfl
  have hn := hundredths_div_le hc h
  generalize hundredths m e = n at hnearest hn
  have hhundred : (0 : ℚ) < 100 := by norm_num
  have hone : (1 : ℚ) ≤ fullMantissa := by exact_mod_cast (show 1 ≤ fullMantissa by decide)
  -- the least full mantissa and one more bit, which bounds what is read
  have hle : (n : ℚ) / (100 : Nat) ≤ valueOf fullMantissa 1 := by
    rw [valueOf, zpow_one]
    push_cast
    linarith
  obtain ⟨m', e', h', heq, hbest⟩ := exists_ofRatio_eq false (by decide)
    (hle.trans_lt (valueOf_lt_overflow (by decide)))
  replace hbest := hbest.near
  rw [show ((100 : Nat) : ℚ) = 100 by norm_num] at hbest
  refine ⟨m', e', h', heq, fun hzero => ?_, fun hplaces => ?_⟩
  · -- the whole number is a double, so that it is read exactly
    have hwhole : (n : ℚ) / 100 = (n / 100 : Nat) := by
      rw [div_eq_iff hhundred.ne']
      exact_mod_cast (Nat.div_mul_cancel (Nat.dvd_of_mod_eq_zero hzero)).symm
    have hsmall : n / 100 < 2 * fullMantissa := by
      have hlt : ((n / 100 : Nat) : ℚ) < (2 * fullMantissa : Nat) := by
        rw [← hwhole]
        push_cast
        linarith
      exact_mod_cast hlt
    obtain ⟨m₀, e₀, hc₀, hvalue⟩ := exists_valueOf_eq hsmall
    have hexact := hbest m₀ e₀ hc₀
    rw [hvalue, ← hwhole, sub_self, abs_zero] at hexact
    have hzero := abs_eq_zero.mp (le_antisymm hexact (abs_nonneg _))
    rw [← hwhole]
    linarith
  · -- what is read is no further from the text than what was written
    have hscaled (v : ℚ) : |v * 100 - n| = |(n : ℚ) / 100 - v| * 100 := by
      rw [abs_sub_comm, ← abs_of_pos hhundred, ← abs_mul, abs_of_pos hhundred, sub_mul,
        div_mul_cancel₀ _ hhundred.ne']
    have hcloser : |valueOf m' e' * 100 - n| ≤ |valueOf m e * 100 - n| := by
      rw [hscaled, hscaled]
      exact mul_le_mul_of_nonneg_right (hbest m e hc) hhundred.le
    have hnearest' := hnearest.of_abs_le hcloser
    refine ⟨fun k hk => hplaces ?_, hundredths_eq_iff.mpr hnearest'⟩
    rw [hk] at hnearest'
    exact mod_eq_zero_of_isNearestInteger hnearest'

end Double

end QueryScope
