import Multirotor.Proofs.Binary32.Near
import Multirotor.Proofs.Binary32.RoundAway

/-!
# Whole percentages

A fraction of 1 is multiplied by a hundred and rounded to the nearest integer.  The product is
itself rounded, by `2 ^ -18` at most, so the percentage is little more than a half away from the
exact one.
-/

namespace Multirotor.Binary32

variable {x : Binary32}

/-- A hundred times a fraction, rounded. -/
private theorem hundredfold (unit : x.Between 0 1) :
    (x * 100).Between 0 100 ∧ (x * 100).Near (x.value * 100) (1 / 2 ^ 18) := by
  have hundred := hundred_between
  refine ⟨unit.mul_of_nonneg (hundred.mono (by norm_num) le_rfl) (by norm_num), ?_⟩
  have rounded := mul_roundsTo unit.finite hundred.finite
  rw [hundred.value_eq, Int.cast_ofNat] at rounded
  have size : |x.value * 100| * 2 ^ 17 ≤ 2 ^ 24 := by
    rw [abs_of_nonneg (mul_nonneg unit.value_nonneg (by norm_num))]
    linarith [unit.value_le_one]
  obtain ⟨finite_product, close⟩ := rounded.near (by norm_num) size
  exact ⟨finite_product, close⟩

/-- The percentage of a fraction is a percentage, and about a half away from the exact one. -/
theorem percent_close (unit : 0 ≤ x ∧ x ≤ 1) :
    x.percent.toNat ≤ 100 ∧ |(x.percent.toNat : ℚ) - 100 * x.value| ≤ 51 / 100 := by
  have fraction := between_of_le zero_between one_between unit.1 unit.2
  obtain ⟨range, product⟩ := hundredfold fraction
  have in_range : (x * 100).Between 0 (255 : ℕ) := range.mono le_rfl (by norm_num)
  have whole := toNatAtMost_le_limit (x * 100).roundAway 255
  have percentage : x.percent.toNat = (x * 100).roundAway.toNatAtMost 255 := by
    rw [percent, toUInt8, UInt8.toNat_ofNat']
    omega
  have close : |(x.percent.toNat : ℚ) - 100 * x.value| ≤ 51 / 100 := by
    rw [percentage, mul_comm]
    calc
      |((x * 100).roundAway.toNatAtMost 255 : ℚ) - x.value * 100| ≤ _ + _ := abs_sub_le _ _ _
      _ ≤ 1 / 2 + 1 / 2 ^ 18 := add_le_add (toNatAtMost_roundAway_close in_range) product.close
      _ ≤ 51 / 100 := by norm_num
  refine ⟨?_, close⟩
  have upper := (abs_le.mp close).2
  have bound : (x.percent.toNat : ℚ) < 101 := by linarith [fraction.value_le_one]
  have bound : x.percent.toNat < 101 := by exact_mod_cast bound
  omega

end Multirotor.Binary32
