import Mathlib.Algebra.Order.Field.Power
import Mathlib.Algebra.Order.Field.Rat
import Mathlib.Algebra.Order.AbsoluteValue.Basic
import Mathlib.Data.Nat.Cast.Order.Field
import Mathlib.Tactic.FieldSimp
import Mathlib.Tactic.Linarith
import Mathlib.Tactic.Positivity
import Mathlib.Tactic.Ring
import QueryScope.Proofs.Double

/-!
# Rounding to the nearest double

Integers and doubles are rounded as rational numbers are: nothing on the respective grid is nearer
to the exact value than what it is rounded to. The double nearest to a value is therefore the value
itself when that is a double. There is only one, and there is none from the overflow on, where a
value is rounded to an infinity.
-/

namespace QueryScope

variable {num den : Nat}

/-! ## The nearest integer -/

/-- The nearest integer is the one less than a half away, or the even one that is a half away. -/
structure IsNearestInteger (q : ℚ) (r : Nat) : Prop where
  near : 2 * |q - r| ≤ 1
  even : 2 * |q - r| = 1 → r % 2 = 0

theorem IsNearestInteger.unique {q : ℚ} {r s : Nat} (hr : IsNearestInteger q r)
    (hs : IsNearestInteger q s) : r = s := by
  have hnear : |(r : ℚ) - s| ≤ |q - r| + |q - s| := by
    have h := abs_sub_le (r : ℚ) q s
    rwa [abs_sub_comm (r : ℚ) q] at h
  have hle : |(r : ℤ) - s| ≤ 1 := by
    have h : |(r : ℚ) - s| ≤ 1 := by linarith [hr.near, hs.near]
    exact_mod_cast h
  by_contra hne
  -- neighbours that are both a half away are not both even
  have hone : |(r : ℤ) - s| = 1 := le_antisymm hle (Int.one_le_abs (by omega))
  have hhalves : |(r : ℚ) - s| = 1 := by exact_mod_cast hone
  have hr2 : 2 * |q - r| = 1 := le_antisymm hr.near (by linarith [hs.near])
  have hs2 : 2 * |q - s| = 1 := le_antisymm hs.near (by linarith [hr.near])
  have hreven := hr.even hr2
  have hseven := hs.even hs2
  rcases (abs_eq Int.one_nonneg).mp hone with h | h <;> omega

/-- What is nearer to the integer has the same nearest integer. -/
theorem IsNearestInteger.of_abs_le {p q : ℚ} {r : Nat} (h : IsNearestInteger q r)
    (hle : |p - r| ≤ |q - r|) : IsNearestInteger p r where
  near := by linarith [h.near]
  even hhalf := h.even (le_antisymm h.near (by linarith))

theorem IsNearestInteger.le_of_le {q : ℚ} {r k : Nat} (h : IsNearestInteger q r) (hq : q ≤ k) :
    r ≤ k := by
  have hlow := (abs_le.mp (show |q - r| ≤ 1 / 2 by linarith [h.near])).1
  have hlt : (r : ℚ) < k + 1 := by linarith
  exact Nat.lt_succ_iff.mp (by exact_mod_cast hlt)

theorem IsNearestInteger.le_of_ge {q : ℚ} {r k : Nat} (h : IsNearestInteger q r) (hq : k ≤ q) :
    k ≤ r := by
  have hhigh := (abs_le.mp (show |q - r| ≤ 1 / 2 by linarith [h.near])).2
  have hlt : (k : ℚ) < r + 1 := by linarith
  exact Nat.lt_succ_iff.mp (by exact_mod_cast hlt)

theorem cast_div_eq (hd : 0 < den) :
    (num : ℚ) / den = (num / den : Nat) + ((num % den : Nat) : ℚ) / den := by
  have hden : (den : ℚ) ≠ 0 := by exact_mod_cast hd.ne'
  have hnum : (num : ℚ) = den * (num / den : Nat) + (num % den : Nat) := by
    exact_mod_cast (Nat.div_add_mod num den).symm
  rw [div_eq_iff hden, add_mul, div_mul_cancel₀ _ hden, mul_comm]
  exact hnum

theorem isNearestInteger_roundDiv (num : Nat) (hd : 0 < den) :
    IsNearestInteger (num / den) (roundDiv .toEven num den) := by
  have hden : (0 : ℚ) < den := by exact_mod_cast hd
  have hrest : ((num % den : Nat) : ℚ) / den < 1 := by
    rw [div_lt_one hden]
    exact_mod_cast Nat.mod_lt num hd
  have hnonneg : 0 ≤ ((num % den : Nat) : ℚ) / den := by positivity
  have hbelow : |(num : ℚ) / den - (num / den : Nat)| = ((num % den : Nat) : ℚ) / den := by
    rw [cast_div_eq hd, add_sub_cancel_left, abs_of_nonneg hnonneg]
  have habove : |(num : ℚ) / den - (num / den + 1 : Nat)| = 1 - ((num % den : Nat) : ℚ) / den := by
    have h : (num : ℚ) / den - (num / den + 1 : Nat) = -(1 - ((num % den : Nat) : ℚ) / den) := by
      rw [cast_div_eq hd]
      push_cast
      ring
    rw [h, abs_neg, abs_of_nonneg (by linarith)]
  have hhalf : 2 * (((num % den : Nat) : ℚ) / den) = (2 * (num % den) : Nat) / den := by
    push_cast
    ring
  simp only [roundDiv]
  split_ifs with hlow hhigh
  · have h : 2 * (((num % den : Nat) : ℚ) / den) < 1 := by
      rw [hhalf, div_lt_one hden]
      exact_mod_cast hlow
    exact ⟨by rw [hbelow]; exact h.le, fun heq => by rw [hbelow] at heq; exact absurd heq h.ne⟩
  · have h : 1 < 2 * (((num % den : Nat) : ℚ) / den) := by
      rw [hhalf, one_lt_div hden]
      exact_mod_cast hhigh
    exact ⟨by rw [habove]; linarith, fun heq => by rw [habove] at heq; linarith⟩
  · have h : 2 * (((num % den : Nat) : ℚ) / den) = 1 := by
      rw [hhalf, div_eq_one_iff_eq hden.ne']
      exact_mod_cast le_antisymm (not_lt.mp hhigh) (not_lt.mp hlow)
    rcases Nat.mod_two_eq_zero_or_one (num / den) with heven | hodd
    · rw [heven, Nat.add_zero]
      exact ⟨by rw [hbelow, h], fun _ => heven⟩
    · rw [hodd]
      exact ⟨by rw [habove]; linarith, fun _ => by omega⟩

theorem roundDiv_eq_iff (hd : 0 < den) {r : Nat} :
    roundDiv .toEven num den = r ↔ IsNearestInteger (num / den) r := by
  constructor
  · rintro rfl
    exact isNearestInteger_roundDiv num hd
  · exact (isNearestInteger_roundDiv num hd).unique

/-- What is an integer is not rounded. -/
theorem roundDiv_of_eq_natCast (tie : Tie) (hd : 0 < den) {r : Nat} (h : (num : ℚ) / den = r) :
    roundDiv tie num den = r := by
  have hden : (den : ℚ) ≠ 0 := by exact_mod_cast hd.ne'
  obtain rfl : num = r * den := by
    rw [div_eq_iff hden] at h
    exact_mod_cast h
  simp only [roundDiv]
  rw [Nat.mul_mod_left, if_pos (by omega), Nat.mul_div_cancel r hd]

theorem roundDiv_mul_of_dvd (tie : Tie) (hd : 0 < den) (h : den ∣ num) :
    roundDiv tie num den * den = num := by
  obtain ⟨a, rfl⟩ := h
  have hexact : ((den * a : Nat) : ℚ) / den = a := by
    rw [Nat.cast_mul, mul_div_cancel_left₀ _ (by exact_mod_cast hd.ne')]
  rw [roundDiv_of_eq_natCast tie hd hexact, Nat.mul_comm]

/-- Two integers cannot both be nearer than a half. -/
theorem one_le_abs_sub_add_abs_sub (q : ℚ) {r : Nat} {k : ℤ} (hk : k ≠ r) :
    1 ≤ |q - r| + |q - k| := by
  have hone : 1 ≤ |(r : ℚ) - k| := by
    have h : 1 ≤ |(r : ℤ) - k| := Int.one_le_abs (by omega)
    exact_mod_cast h
  have htriangle := abs_sub_le (r : ℚ) q k
  rw [abs_sub_comm _ q] at htriangle
  linarith

/-- No integer is nearer. -/
theorem IsNearestInteger.near_of_int {q : ℚ} {r : Nat} (h : IsNearestInteger q r) (k : ℤ) :
    |q - r| ≤ |q - k| := by
  by_cases hk : k = (r : ℤ)
  · rw [hk, Int.cast_natCast]
  · linarith [one_le_abs_sub_add_abs_sub q hk, h.near]

/-- Of two integers that are equally near it is the even one. -/
theorem IsNearestInteger.even_of_abs_eq {q : ℚ} {r : Nat} (h : IsNearestInteger q r) {k : ℤ}
    (hk : k ≠ r) (heq : |q - r| = |q - k|) : r % 2 = 0 :=
  h.even (le_antisymm h.near (by linarith [one_le_abs_sub_add_abs_sub q hk]))

/-- An even integer is reached from a half below on. -/
theorem IsNearestInteger.le_iff_of_even {q : ℚ} {r k : Nat} (h : IsNearestInteger q r)
    (hk : k % 2 = 0) : k ≤ r ↔ (k : ℚ) - 1 / 2 ≤ q := by
  have hnear := abs_le.mp (show |q - r| ≤ 1 / 2 by linarith [h.near])
  constructor
  · intro hle
    have hcast : (k : ℚ) ≤ r := by exact_mod_cast hle
    linarith [hnear.1]
  · intro hle
    by_contra hlt
    have hcast : (r : ℚ) + 1 ≤ k := by exact_mod_cast not_le.mp hlt
    -- the odd integer below it is then a half away as well
    have hsum : (r : ℚ) + 1 = k := le_antisymm hcast (by linarith [hnear.2])
    have hhalf : 2 * |q - r| = 1 := by
      rw [abs_of_nonneg (by linarith)]
      linarith [hnear.2]
    have heven := h.even hhalf
    have hnat : r + 1 = k := by exact_mod_cast hsum
    omega

/-! ## The values of doubles -/

theorem fullMantissa_eq : fullMantissa = 2 ^ 52 := by decide

namespace CanonicalForm

variable {m : Nat} {e : Int}

theorem lt (h : CanonicalForm m e) : m < 2 * fullMantissa := by
  rcases h with ⟨-, h⟩ | ⟨-, -, -, h⟩ <;> exact h

theorem ge_exponent (h : CanonicalForm m e) : -1074 ≤ e := by
  rcases h with ⟨rfl, -⟩ | ⟨h, -⟩ <;> omega

theorem exponent_le (h : CanonicalForm m e) : e ≤ 971 := by
  rcases h with ⟨rfl, -⟩ | ⟨-, h, -⟩ <;> omega

/-- Above the least exponent a mantissa has all its bits. -/
theorem full (h : CanonicalForm m e) (he : -1074 < e) : fullMantissa ≤ m := by
  rcases h with ⟨rfl, -⟩ | ⟨-, -, h, -⟩
  · exact absurd he (lt_irrefl _)
  · exact h

end CanonicalForm

namespace Double

variable {m n d : Nat} {e k : Int} {negative : Bool}

/-- The value of a mantissa and an exponent. -/
def valueOf (mantissa : Nat) (exponent : Int) : ℚ :=
  mantissa * 2 ^ exponent

theorem valueOf_lt (h : CanonicalForm m e) : valueOf m e < 2 ^ (e + 53) := by
  have hlt : (m : ℚ) < 2 ^ (53 : Int) := by
    have h := h.lt
    rw [fullMantissa_eq] at h
    exact_mod_cast h
  rw [valueOf, zpow_add₀ two_ne_zero, mul_comm ((2 : ℚ) ^ e)]
  exact mul_lt_mul_of_pos_right hlt (by positivity)

theorem le_valueOf (h : fullMantissa ≤ m) : (2 : ℚ) ^ (e + 52) ≤ valueOf m e := by
  have hle : (2 : ℚ) ^ (52 : Int) ≤ m := by
    rw [fullMantissa_eq] at h
    exact_mod_cast h
  rw [valueOf, zpow_add₀ two_ne_zero, mul_comm ((2 : ℚ) ^ e)]
  exact mul_le_mul_of_nonneg_right hle (by positivity)

/-- A double that is not smaller has no smaller exponent. -/
theorem exponent_le_of_valueOf_le (hm : CanonicalForm m e) (hn : CanonicalForm n k)
    (h : valueOf m e ≤ valueOf n k) : e ≤ k := by
  -- the larger exponent would have a full mantissa, which the smaller one cannot make up for
  by_contra hlt
  have hfull := le_valueOf (e := e) (hm.full (by have := hn.ge_exponent; omega))
  have hbelow := valueOf_lt hn
  have hpow : (2 : ℚ) ^ (k + 53) ≤ 2 ^ (e + 52) :=
    zpow_le_zpow_right₀ one_le_two (by omega)
  linarith

/-- Canonical forms of one value are the same. -/
theorem valueOf_inj (hm : CanonicalForm m e) (hn : CanonicalForm n k)
    (h : valueOf m e = valueOf n k) : m = n ∧ e = k := by
  obtain rfl : e = k := le_antisymm (exponent_le_of_valueOf_le hm hn h.le)
    (exponent_le_of_valueOf_le hn hm h.ge)
  have hpos : (2 : ℚ) ^ e ≠ 0 := by positivity
  exact ⟨by exact_mod_cast mul_right_cancel₀ hpos h, rfl⟩

theorem ratio_spec (m : Nat) (e : Int) :
    0 < (ratio m e).2 ∧ ((ratio m e).1 : ℚ) / (ratio m e).2 = valueOf m e := by
  cases e with
  | ofNat k =>
    refine ⟨Nat.one_pos, ?_⟩
    rw [ratio, Nat.shiftLeft_eq, valueOf, Int.ofNat_eq_natCast, zpow_natCast]
    push_cast
    ring
  | negSucc k =>
    rw [ratio, Nat.one_shiftLeft]
    refine ⟨Nat.two_pow_pos _, ?_⟩
    rw [valueOf, zpow_negSucc]
    push_cast
    ring

theorem scaleDown_eq (hd : 0 < den) (hs : scaleDown num den e = (n, d)) :
    0 < d ∧ (n : ℚ) / d = num / den / 2 ^ e := by
  cases e with
  | ofNat k =>
    obtain ⟨rfl, rfl⟩ := Prod.mk.inj hs
    rw [Nat.shiftLeft_eq]
    refine ⟨Nat.mul_pos hd (Nat.two_pow_pos _), ?_⟩
    rw [Int.ofNat_eq_natCast, zpow_natCast, div_div]
    push_cast
    rfl
  | negSucc k =>
    obtain ⟨rfl, rfl⟩ := Prod.mk.inj hs
    refine ⟨hd, ?_⟩
    rw [Nat.shiftLeft_eq, zpow_negSucc]
    push_cast
    field_simp

/-- A positive fraction lies between its power of two and the next one. -/
theorem floorLog2_spec (hn : 0 < num) (hd : 0 < den) :
    (2 : ℚ) ^ floorLog2 num den ≤ num / den ∧ (num : ℚ) / den < 2 ^ (floorLog2 num den + 1) := by
  have hden : (0 : ℚ) < den := by exact_mod_cast hd
  have hlow : (2 : ℚ) ^ (Nat.log2 num : Int) ≤ num := by
    exact_mod_cast Nat.log2_self_le hn.ne'
  have hhigh : (num : ℚ) < 2 ^ ((Nat.log2 num : Int) + 1) := by
    exact_mod_cast Nat.lt_log2_self (n := num)
  have hdlow : (2 : ℚ) ^ (Nat.log2 den : Int) ≤ den := by
    exact_mod_cast Nat.log2_self_le hd.ne'
  have hdhigh : (den : ℚ) < 2 ^ ((Nat.log2 den : Int) + 1) := by
    exact_mod_cast Nat.lt_log2_self (n := den)
  generalize hguess : (Nat.log2 num : Int) - (Nat.log2 den : Int) = guess
  have habove : (num : ℚ) / den < 2 ^ (guess + 1) := by
    rw [div_lt_iff₀ hden, ← hguess]
    calc (num : ℚ) < 2 ^ ((Nat.log2 num : Int) + 1) := hhigh
      _ = 2 ^ ((Nat.log2 num : Int) - (Nat.log2 den : Int) + 1) * 2 ^ (Nat.log2 den : Int) := by
        rw [← zpow_add₀ two_ne_zero]
        congr 1
        ring
      _ ≤ _ := mul_le_mul_of_nonneg_left hdlow (by positivity)
  have hbelow : (2 : ℚ) ^ (guess - 1) ≤ num / den := by
    rw [le_div_iff₀ hden, ← hguess]
    calc (2 : ℚ) ^ ((Nat.log2 num : Int) - (Nat.log2 den : Int) - 1) * den
        ≤ 2 ^ ((Nat.log2 num : Int) - (Nat.log2 den : Int) - 1) *
            2 ^ ((Nat.log2 den : Int) + 1) := mul_le_mul_of_nonneg_left hdhigh.le (by positivity)
      _ = 2 ^ (Nat.log2 num : Int) := by
        rw [← zpow_add₀ two_ne_zero]
        congr 1
        ring
      _ ≤ num := hlow
  cases hs : scaleDown num den guess with
  | mk n d =>
    obtain ⟨hdpos, hscaled⟩ := scaleDown_eq hd hs
    have hle : d ≤ n ↔ (2 : ℚ) ^ guess ≤ num / den := by
      have hpow : (0 : ℚ) < 2 ^ guess := by positivity
      have hd' : (0 : ℚ) < d := by exact_mod_cast hdpos
      rw [← one_le_div₀ hpow, ← hscaled, one_le_div₀ hd']
      exact_mod_cast Iff.rfl
    simp only [floorLog2, hguess, hs]
    by_cases hfits : d ≤ n
    · rw [if_pos hfits]
      exact ⟨hle.mp hfits, habove⟩
    · rw [if_neg hfits, sub_add_cancel]
      exact ⟨hbelow, not_le.mp (mt hle.mpr hfits)⟩

/-! ## The nearest double -/

/-- The exponent at which a fraction is rounded. -/
def scaleOf (num den : Nat) : Int :=
  max (floorLog2 num den - 52) (-1074)

/-- At its scale a fraction has no more bits than a mantissa has, and no fewer except at the least
exponent. -/
theorem scaleOf_spec (hn : 0 < num) (hd : 0 < den) :
    (num : ℚ) / den < 2 ^ (scaleOf num den + 53) ∧
      (-1074 < scaleOf num den → (2 : ℚ) ^ (scaleOf num den + 52) ≤ num / den) := by
  obtain ⟨hlow, hhigh⟩ := floorLog2_spec hn hd
  refine ⟨hhigh.trans_le (zpow_le_zpow_right₀ one_le_two ?_), fun hscale => ?_⟩
  · have h := le_max_left (floorLog2 num den - 52) (-1074)
    rw [scaleOf]
    omega
  · have h : scaleOf num den + 52 = floorLog2 num den := by
      rw [scaleOf] at hscale ⊢
      omega
    rw [h]
    exact hlow

/-- The mantissa that a fraction is rounded to, before a carry. -/
theorem mantissa_spec (hn : 0 < num) (hd : 0 < den)
    (hs : scaleDown num den (scaleOf num den) = (n, d)) :
    roundDiv .toEven n d ≤ 2 * fullMantissa ∧
      (-1074 < scaleOf num den → fullMantissa ≤ roundDiv .toEven n d) := by
  obtain ⟨hdpos, hscaled⟩ := scaleDown_eq hd hs
  obtain ⟨hhigh, hlow⟩ := scaleOf_spec hn hd
  have hpow : (0 : ℚ) < 2 ^ scaleOf num den := by positivity
  have hnearest := isNearestInteger_roundDiv n hdpos
  refine ⟨hnearest.le_of_le ?_, fun hscale => hnearest.le_of_ge ?_⟩
  · rw [hscaled, div_le_iff₀ hpow, fullMantissa_eq]
    rw [zpow_add₀ two_ne_zero, mul_comm] at hhigh
    exact_mod_cast hhigh.le
  · have h := hlow hscale
    rw [hscaled, le_div_iff₀ hpow, fullMantissa_eq]
    rw [zpow_add₀ two_ne_zero, mul_comm] at h
    exact_mod_cast h

/-- No double is nearer to `q`, and another one that is equally near has an odd mantissa beside an
even one. -/
structure IsNearest (q : ℚ) (mantissa : Nat) (exponent : Int) : Prop where
  near : ∀ m e, CanonicalForm m e → |q - valueOf mantissa exponent| ≤ |q - valueOf m e|
  even : ∀ m e, CanonicalForm m e → valueOf m e ≠ valueOf mantissa exponent →
    |q - valueOf mantissa exponent| = |q - valueOf m e| → mantissa % 2 = 0

/-- Between two doubles with even mantissas there is another one. -/
theorem exists_valueOf_between (hm : CanonicalForm m e) (hn : CanonicalForm n k)
    (hmeven : m % 2 = 0) (hneven : n % 2 = 0) (h : valueOf m e < valueOf n k) :
    ∃ m' e', CanonicalForm m' e' ∧ valueOf m e < valueOf m' e' ∧ valueOf m' e' < valueOf n k := by
  have hpow : (0 : ℚ) < 2 ^ e := by positivity
  obtain ⟨j, hj⟩ := Int.le.dest (exponent_le_of_valueOf_le hm hn h.le)
  have hmultiple : valueOf n k = (n * 2 ^ j : Nat) * 2 ^ e := by
    rw [valueOf, ← hj, zpow_add₀ two_ne_zero, zpow_natCast]
    push_cast
    ring
  have heven : n * 2 ^ j % 2 = 0 := by
    rw [Nat.mul_mod, hneven, Nat.zero_mul]
  rw [hmultiple] at h ⊢
  have hlt : m < n * 2 ^ j := by exact_mod_cast lt_of_mul_lt_mul_right h hpow.le
  have hnext : CanonicalForm (m + 1) e := by
    unfold CanonicalForm fullMantissa at hm ⊢
    omega
  refine ⟨m + 1, e, hnext, ?_, ?_⟩
  · exact mul_lt_mul_of_pos_right (by exact_mod_cast Nat.lt_succ_self m) hpow
  · exact mul_lt_mul_of_pos_right (by exact_mod_cast (show m + 1 < n * 2 ^ j by omega)) hpow

/-- There is one nearest double. -/
theorem IsNearest.unique {q : ℚ} (hm : CanonicalForm m e) (hn : CanonicalForm n k)
    (h : IsNearest q m e) (h' : IsNearest q n k) : m = n ∧ e = k := by
  have hle {m n : Nat} {e k : Int} (hm : CanonicalForm m e) (hn : CanonicalForm n k)
      (h : IsNearest q m e) (h' : IsNearest q n k) : valueOf n k ≤ valueOf m e := by
    by_contra hlt
    rw [not_le] at hlt
    have hsame := le_antisymm (h.near n k hn) (h'.near m e hm)
    obtain ⟨m', e', hc, hlow, hhigh⟩ := exists_valueOf_between hm hn
      (h.even n k hn hlt.ne' hsame) (h'.even m e hm hlt.ne hsame.symm) hlt
    -- what is between them is nearer, since the two are equally near on either side
    have hmiddle : q - valueOf m e = valueOf n k - q := by
      rcases abs_eq_abs.mp hsame with heq | heq <;> linarith
    have hnear := h.near m' e' hc
    rw [abs_of_pos (by linarith)] at hnear
    exact absurd hnear (not_le.mpr (abs_lt.mpr ⟨by linarith, by linarith⟩))
  exact valueOf_inj hm hn (le_antisymm (hle hn hm h' h) (hle hm hn h h'))

/-- A double is a multiple of the unit at which a fraction is rounded, or it is smaller than all
numbers that have a full mantissa there, as the fraction has. -/
theorem multiple_or_below (hn : 0 < num) (hd : 0 < den) (hm : CanonicalForm m e) :
    (∃ k : ℤ, valueOf m e = k * 2 ^ scaleOf num den) ∨
      valueOf m e < 2 ^ (scaleOf num den + 52) ∧
        (2 : ℚ) ^ (scaleOf num den + 52) ≤ num / den := by
  generalize hscale : scaleOf num den = scale
  by_cases hle : scale ≤ e
  · left
    have hexp : e = ((e - scale).toNat : Int) + scale := by omega
    refine ⟨(m * 2 ^ (e - scale).toNat : Nat), ?_⟩
    rw [valueOf]
    conv_lhs => rw [hexp, zpow_add₀ two_ne_zero, zpow_natCast]
    push_cast
    ring
  · right
    refine ⟨(valueOf_lt hm).trans_le (zpow_le_zpow_right₀ one_le_two (by omega)), ?_⟩
    rw [← hscale]
    exact (scaleOf_spec hn hd).2 (by have := hm.ge_exponent; omega)

/-- Nothing on the grid of doubles is nearer than the rounded mantissa. -/
theorem isNearest_mantissa (hn : 0 < num) (hd : 0 < den)
    (hs : scaleDown num den (scaleOf num den) = (n, d)) :
    IsNearest (num / den) (roundDiv .toEven n d) (scaleOf num den) := by
  obtain ⟨hdpos, hscaled⟩ := scaleDown_eq hd hs
  have hnearest := isNearestInteger_roundDiv n hdpos
  have hpow : (0 : ℚ) < 2 ^ scaleOf num den := by positivity
  have habs (x : ℚ) : |(n : ℚ) / d - x| * 2 ^ scaleOf num den =
      |(num : ℚ) / den - x * 2 ^ scaleOf num den| := by
    rw [hscaled, ← abs_of_pos hpow, ← abs_mul, abs_of_pos hpow, sub_mul,
      div_mul_cancel₀ _ hpow.ne']
  -- multiples of the unit at this scale
  have hgrid (k : ℤ) :
      |(num : ℚ) / den - valueOf (roundDiv .toEven n d) (scaleOf num den)| ≤
        |(num : ℚ) / den - k * 2 ^ scaleOf num den| := by
    rw [valueOf, ← habs, ← habs]
    exact mul_le_mul_of_nonneg_right (hnearest.near_of_int k) hpow.le
  -- the least number with a full mantissa is one of them, so that smaller numbers are further away
  have hbelow {v : ℚ} (hv : v < 2 ^ (scaleOf num den + 52))
      (hfull : (2 : ℚ) ^ (scaleOf num den + 52) ≤ num / den) :
      |(num : ℚ) / den - valueOf (roundDiv .toEven n d) (scaleOf num den)| <
        |(num : ℚ) / den - v| := by
    have h := hgrid (2 ^ 52)
    have hvalue : ((2 ^ 52 : ℤ) : ℚ) * 2 ^ scaleOf num den = 2 ^ (scaleOf num den + 52) := by
      rw [zpow_add₀ two_ne_zero, mul_comm]
      norm_num
    rw [hvalue, abs_of_nonneg (sub_nonneg.mpr hfull)] at h
    rw [abs_of_pos (sub_pos.mpr (hv.trans_le hfull))]
    linarith
  constructor
  · intro m e hm
    rcases multiple_or_below hn hd hm with ⟨k, hk⟩ | ⟨hv, hfull⟩
    · rw [hk]
      exact hgrid k
    · exact (hbelow hv hfull).le
  · intro m e hm hne heq
    rcases multiple_or_below hn hd hm with ⟨k, hk⟩ | ⟨hv, hfull⟩
    · rw [hk, valueOf, ← habs, ← habs] at heq
      refine hnearest.even_of_abs_eq (fun hsame => hne ?_) (mul_right_cancel₀ hpow.ne' heq)
      rw [hk, hsame, valueOf, Int.cast_natCast]
    · exact absurd heq (hbelow hv hfull).ne

theorem valueOf_le {top : Int} (h : CanonicalForm m e) (htop : e ≤ top) :
    valueOf m e ≤ (2 * fullMantissa - 1 : Nat) * 2 ^ top := by
  have hm : (m : ℚ) ≤ (2 * fullMantissa - 1 : Nat) := by
    have := h.lt
    exact_mod_cast Nat.le_sub_one_of_lt this
  have he : (2 : ℚ) ^ e ≤ 2 ^ top := zpow_le_zpow_right₀ one_le_two htop
  exact mul_le_mul hm he (by positivity) (by positivity)

/-- Where numbers begin that are rounded to an infinity: in the middle between the greatest double
and the power of two that would be next. -/
def overflow : ℚ :=
  ((2 * fullMantissa : Nat) - 1 / 2) * 2 ^ (971 : Int)

theorem overflow_bounds : (2 : ℚ) ^ (1023 : Int) < overflow ∧ overflow < 2 ^ (1024 : Int) := by
  have hpow : (0 : ℚ) < 2 ^ (971 : Int) := by positivity
  have hlow : (2 : ℚ) ^ (1023 : Int) = 2 ^ (52 : Int) * 2 ^ (971 : Int) := by
    rw [← zpow_add₀ two_ne_zero]
    rfl
  have hhigh : (2 : ℚ) ^ (1024 : Int) = 2 ^ (53 : Int) * 2 ^ (971 : Int) := by
    rw [← zpow_add₀ two_ne_zero]
    rfl
  rw [overflow, hlow, hhigh, fullMantissa_eq]
  constructor
  · refine mul_lt_mul_of_pos_right ?_ hpow
    norm_num
  · refine mul_lt_mul_of_pos_right ?_ hpow
    norm_num

theorem valueOf_lt_overflow (h : CanonicalForm m e) : valueOf m e < overflow := by
  refine (valueOf_le h h.exponent_le).trans_lt (mul_lt_mul_of_pos_right ?_ (by positivity))
  rw [fullMantissa_eq]
  norm_num

/-- Below the overflow a fraction is rounded at the scale of a double. -/
theorem scaleOf_le (hn : 0 < num) (hd : 0 < den) (hq : (num : ℚ) / den < overflow) :
    scaleOf num den ≤ 971 := by
  have hlt : (2 : ℚ) ^ floorLog2 num den < 2 ^ (1024 : Int) := by
    calc (2 : ℚ) ^ floorLog2 num den ≤ num / den := (floorLog2_spec hn hd).1
      _ < overflow := hq
      _ < 2 ^ (1024 : Int) := overflow_bounds.2
  have h := (zpow_lt_zpow_iff_right₀ one_lt_two).mp hlt
  rw [scaleOf]
  omega

/-- From the overflow on it is not rounded below the scale of the greatest doubles. -/
theorem le_scaleOf (hn : 0 < num) (hd : 0 < den) (hq : overflow ≤ (num : ℚ) / den) :
    971 ≤ scaleOf num den := by
  have hlt : (2 : ℚ) ^ (1023 : Int) < 2 ^ (floorLog2 num den + 1) := by
    calc (2 : ℚ) ^ (1023 : Int) < overflow := overflow_bounds.1
      _ ≤ num / den := hq
      _ < 2 ^ (floorLog2 num den + 1) := (floorLog2_spec hn hd).2
  have h := (zpow_lt_zpow_iff_right₀ one_lt_two).mp hlt
  rw [scaleOf]
  omega

/-- At the scale of the greatest doubles the mantissa is carried just from the overflow on. -/
theorem carry_iff (hd : 0 < den) (hscale : scaleOf num den = 971)
    (hs : scaleDown num den (scaleOf num den) = (n, d)) :
    2 * fullMantissa ≤ roundDiv .toEven n d ↔ overflow ≤ (num : ℚ) / den := by
  obtain ⟨hdpos, hscaled⟩ := scaleDown_eq hd hs
  rw [hscale] at hscaled
  rw [(isNearestInteger_roundDiv n hdpos).le_iff_of_even (by decide), hscaled,
    le_div_iff₀ (by positivity)]
  rfl

theorem ofRatio_eq_pack (negative : Bool) (hn : 0 < num)
    (hs : scaleDown num den (scaleOf num den) = (n, d)) : ofRatio negative num den =
      if roundDiv .toEven n d = 2 * fullMantissa then
        pack negative fullMantissa (scaleOf num den + 1)
      else pack negative (roundDiv .toEven n d) (scaleOf num den) := by
  have hscale : max (floorLog2 num den - 52) (-1074) = scaleOf num den := rfl
  rw [ofRatio, if_neg hn.ne']
  simp only [hscale, hs]

/-- Below the overflow the rounded mantissa is that of a double, where a carry goes to the even
mantissa of the next scale. -/
theorem exists_ofRatio_eq_valueOf (negative : Bool) (hn : 0 < num) (hd : 0 < den)
    (hq : (num : ℚ) / den < overflow) (hs : scaleDown num den (scaleOf num den) = (n, d)) :
    ∃ m e, ∃ h : CanonicalForm m e, ofRatio negative num den = .finite negative m e h ∧
      valueOf m e = valueOf (roundDiv .toEven n d) (scaleOf num den) ∧
        (roundDiv .toEven n d % 2 = 0 → m % 2 = 0) := by
  have hge : -1074 ≤ scaleOf num den := le_max_right _ _
  have hle := scaleOf_le hn hd hq
  obtain ⟨hhigh, hlow⟩ := mantissa_spec hn hd hs
  have hratio := ofRatio_eq_pack negative hn hs
  by_cases hcarry : roundDiv .toEven n d = 2 * fullMantissa
  · have hlt : scaleOf num den < 971 := by
      refine lt_of_le_of_ne hle fun hscale => ?_
      exact not_le.mpr hq ((carry_iff hd hscale hs).mp hcarry.ge)
    have hcanonical : CanonicalForm fullMantissa (scaleOf num den + 1) :=
      Or.inr ⟨by omega, by omega, le_refl _, by decide⟩
    refine ⟨_, _, hcanonical, ?_, ?_, fun _ => by decide⟩
    · rw [hratio, if_pos hcarry, pack, dif_pos hcanonical]
    · rw [hcarry, valueOf, valueOf, zpow_add_one₀ two_ne_zero]
      push_cast
      ring
  · have hcanonical : CanonicalForm (roundDiv .toEven n d) (scaleOf num den) := by
      rcases eq_or_lt_of_le hge with heq | hlt
      · exact Or.inl ⟨heq.symm, by omega⟩
      · exact Or.inr ⟨hlt, hle, hlow hlt, by omega⟩
    refine ⟨_, _, hcanonical, ?_, rfl, id⟩
    rw [hratio, if_neg hcarry, pack, dif_pos hcanonical]

/-- A number below the overflow is rounded to the nearest double. -/
theorem exists_ofRatio_eq (negative : Bool) (hd : 0 < den) (hq : (num : ℚ) / den < overflow) :
    ∃ m e, ∃ h : CanonicalForm m e,
      ofRatio negative num den = .finite negative m e h ∧ IsNearest (num / den) m e := by
  rcases Nat.eq_zero_or_pos num with rfl | hn
  · refine ⟨0, -1074, by decide, by rw [ofRatio, if_pos rfl]; rfl, fun m' e' _ => ?_,
      fun _ _ _ _ _ => rfl⟩
    rw [valueOf, Nat.cast_zero, zero_div, zero_mul, sub_zero, abs_zero]
    exact abs_nonneg _
  cases hs : scaleDown num den (scaleOf num den) with
  | mk n d =>
    obtain ⟨m, e, h, heq, hvalue, heven⟩ := exists_ofRatio_eq_valueOf negative hn hd hq hs
    have hnearest := isNearest_mantissa hn hd hs
    refine ⟨m, e, h, heq, ?_, ?_⟩
    · rw [hvalue]
      exact hnearest.near
    · rw [hvalue]
      exact fun m' e' hc hne hsame => heven (hnearest.even m' e' hc hne hsame)

/-- From the overflow on there is only infinity. -/
theorem ofRatio_of_overflow_le (negative : Bool) (hd : 0 < den)
    (hq : overflow ≤ (num : ℚ) / den) : ofRatio negative num den = .infinite negative := by
  have hn : 0 < num := by
    refine Nat.pos_of_ne_zero fun hzero => ?_
    have hpos : (0 : ℚ) < overflow := lt_trans (by positivity) overflow_bounds.1
    rw [hzero, Nat.cast_zero, zero_div] at hq
    exact not_le.mpr hpos hq
  have hge := le_scaleOf hn hd hq
  have hpack {mantissa : Nat} {exponent : Int} (h : 971 < exponent) :
      pack negative mantissa exponent = .infinite negative := by
    rw [pack, dif_neg]
    intro hcanonical
    have := hcanonical.exponent_le
    omega
  cases hs : scaleDown num den (scaleOf num den) with
  | mk num' den' =>
    rw [ofRatio_eq_pack negative hn hs]
    split
    · exact hpack (by omega)
    next hcarry =>
      refine hpack (lt_of_le_of_ne hge fun hscale => hcarry ?_)
      have hhigh := (mantissa_spec hn hd hs).1
      exact le_antisymm hhigh ((carry_iff hd hscale.symm hs).mpr hq)

/-- Below the half of the least positive double there is only zero. -/
theorem ofRatio_of_lt_half (negative : Bool) (hd : 0 < den)
    (hq : (num : ℚ) / den < 2 ^ (-1075 : Int)) : ofRatio negative num den = zero negative := by
  have hsmall : (num : ℚ) / den < overflow :=
    hq.trans ((zpow_lt_zpow_right₀ one_lt_two (by decide)).trans overflow_bounds.1)
  obtain ⟨m, e, hc, heq, hnearest⟩ := exists_ofRatio_eq negative hd hsmall
  have hnonneg : (0 : ℚ) ≤ num / den := by positivity
  have hzero := hnearest.near 0 (-1074) (by decide)
  rw [show valueOf 0 (-1074) = 0 by rw [valueOf, Nat.cast_zero, zero_mul], sub_zero,
    abs_of_nonneg hnonneg] at hzero
  have hdouble : (2 : ℚ) ^ (-1074 : Int) = 2 * 2 ^ (-1075 : Int) := by
    rw [mul_comm, ← zpow_add_one₀ two_ne_zero]
    rfl
  have hm : m = 0 := by
    by_contra hpos
    have hone : (1 : ℚ) ≤ m := by exact_mod_cast Nat.one_le_iff_ne_zero.mpr hpos
    have hleast : (2 : ℚ) ^ (-1074 : Int) ≤ valueOf m e :=
      calc (2 : ℚ) ^ (-1074 : Int) ≤ 2 ^ e := zpow_le_zpow_right₀ one_le_two hc.ge_exponent
        _ ≤ m * 2 ^ e := le_mul_of_one_le_left (by positivity) hone
    have habove := (abs_le.mp hzero).1
    linarith
  subst hm
  obtain rfl : e = -1074 := by
    by_contra hne
    exact absurd (hc.full (lt_of_le_of_ne hc.ge_exponent (Ne.symm hne))) (by decide)
  exact heq

/-- The double nearest to the value of a double is that double. -/
theorem ofRatio_of_eq_valueOf (hd : 0 < den) (hc : CanonicalForm m e)
    (h : (num : ℚ) / den = valueOf m e) : ofRatio negative num den = .finite negative m e hc := by
  obtain ⟨m', e', hc', heq, hnearest⟩ :=
    exists_ofRatio_eq negative hd (h.trans_lt (valueOf_lt_overflow hc))
  have hzero := hnearest.near m e hc
  rw [h, sub_self, abs_zero] at hzero
  have hvalue : valueOf m e = valueOf m' e' := by
    rw [← sub_eq_zero]
    exact abs_eq_zero.mp (le_antisymm hzero (abs_nonneg _))
  obtain ⟨rfl, rfl⟩ := valueOf_inj hc hc' hvalue
  exact heq

/-- Rounding keeps the sign. -/
theorem sign_of_ofRatio_eq {s : Bool} {h : CanonicalForm m e}
    (heq : ofRatio negative num den = .finite s m e h) : s = negative := by
  have hpack {mantissa : Nat} {exponent : Int}
      (hp : pack negative mantissa exponent = .finite s m e h) : s = negative := by
    rw [pack] at hp
    split at hp <;> cases hp
    rfl
  rw [ofRatio] at heq
  split at heq
  · cases heq
    rfl
  · simp only at heq
    split at heq
    · exact hpack heq
    · exact hpack heq

end Double

end QueryScope
