import Mathlib.Algebra.Order.Ring.Int
import QueryScope.Number.Double

/-!
# Integers as doubles

An integer of 64 bits is rounded to a finite double.
-/

namespace QueryScope

theorem le_roundDiv (tie : Tie) (num den : Nat) : num / den ≤ roundDiv tie num den := by
  simp only [roundDiv]
  split_ifs
  · exact le_refl _
  · exact Nat.le_succ _
  · cases tie <;> simp

theorem roundDiv_le (tie : Tie) (num den : Nat) : roundDiv tie num den ≤ num / den + 1 := by
  simp only [roundDiv]
  split_ifs
  · exact Nat.le_succ _
  · exact le_refl _
  · cases tie with
    | toEven => exact Nat.add_le_add_left (Nat.le_of_lt_succ (Nat.mod_lt _ (by decide))) _
    | up => exact le_refl _

namespace Double

theorem floorLog2_one {num : Nat} (h : num ≠ 0) : floorLog2 num 1 = Nat.log2 num := by
  have hle : 1 <<< Nat.log2 num ≤ num := by
    rw [Nat.one_shiftLeft]
    exact Nat.log2_self_le h
  have hone : ((Nat.log2 num : Nat) : Int) - (Nat.log2 1 : Nat) = Int.ofNat (Nat.log2 num) := by
    rw [show Nat.log2 1 = 0 from rfl]
    exact Int.sub_zero _
  simp only [floorLog2, hone, scaleDown, if_pos hle, Int.ofNat_eq_natCast]

theorem isFinite_pack {negative : Bool} {mantissa : Nat} {exponent : Int}
    (h : CanonicalForm mantissa exponent) : (pack negative mantissa exponent).isFinite = true := by
  rw [pack, dif_pos h]
  rfl

/-- A positive number at its own scale is a full mantissa. -/
theorem scaleDown_bounds {num : Nat} (h : num ≠ 0) {n d : Nat}
    (hs : scaleDown num 1 ((Nat.log2 num : Int) - 52) = (n, d)) :
    fullMantissa ≤ n / d ∧ n / d < 2 * fullMantissa := by
  have hlow : 2 ^ Nat.log2 num ≤ num := Nat.log2_self_le h
  have hhigh : num < 2 ^ (Nat.log2 num + 1) := Nat.lt_log2_self
  have hfull : fullMantissa = 2 ^ 52 := by decide
  rw [hfull, ← Nat.pow_succ']
  rcases hk : (Nat.log2 num : Int) - 52 with k | k
  · have hlog : Nat.log2 num = 52 + k := by
      have : ((Nat.log2 num : Nat) : Int) - 52 = (k : Int) := hk
      omega
    obtain ⟨rfl, rfl⟩ : num = n ∧ 1 <<< k = d := by
      rw [hk] at hs
      exact Prod.mk.inj hs
    rw [hlog] at hlow hhigh
    rw [Nat.one_shiftLeft, Nat.le_div_iff_mul_le (Nat.two_pow_pos _),
      Nat.div_lt_iff_lt_mul (Nat.two_pow_pos _), ← Nat.pow_add, ← Nat.pow_add]
    exact ⟨hlow, by rwa [show 53 + k = 52 + k + 1 by omega]⟩
  · have hlog : Nat.log2 num + (k + 1) = 52 := by
      have : ((Nat.log2 num : Nat) : Int) - 52 = -((k : Int) + 1) := hk
      omega
    obtain ⟨rfl, rfl⟩ : num <<< (k + 1) = n ∧ 1 = d := by
      rw [hk] at hs
      exact Prod.mk.inj hs
    rw [Nat.div_one, Nat.shiftLeft_eq, ← hlog]
    refine ⟨?_, ?_⟩
    · rw [Nat.pow_add]
      exact Nat.mul_le_mul_right _ hlow
    · rw [← Nat.succ_add, Nat.pow_add 2 (Nat.log2 num).succ]
      exact Nat.mul_lt_mul_of_pos_right hhigh (Nat.two_pow_pos _)

theorem isFinite_ofInt {n : Int} (lower : -9223372036854775808 ≤ n)
    (upper : n < 18446744073709551616) : (ofInt n).isFinite = true := by
  rw [ofInt, ofRatio]
  by_cases h : n.natAbs = 0
  · rw [if_pos h]
    rfl
  · have hlog : Nat.log2 n.natAbs < 64 := (Nat.log2_lt h).mpr (by omega)
    have hexponent : max ((Nat.log2 n.natAbs : Int) - 52) (-1074) =
        (Nat.log2 n.natAbs : Int) - 52 := max_eq_left (by omega)
    rw [if_neg h, floorLog2_one h]
    simp only [hexponent]
    cases hs : scaleDown n.natAbs 1 ((Nat.log2 n.natAbs : Int) - 52) with
    | mk num den =>
      obtain ⟨hlow, hhigh⟩ := scaleDown_bounds h hs
      have hle := le_roundDiv .toEven num den
      have hge := roundDiv_le .toEven num den
      simp only
      split_ifs with hmantissa
      · exact isFinite_pack (Or.inr ⟨by omega, by omega, le_refl _, by decide⟩)
      · exact isFinite_pack (Or.inr ⟨by omega, by omega, by omega, by omega⟩)

end Double

end QueryScope
