import Multirotor.Proofs.Binary32.Near
import Multirotor.Proofs.Binary32.RoundAway
import Multirotor.Protocol

/-!
# Whole nanoseconds

Microseconds are multiplied by a thousand, rounded to an integer and limited to 32 bits.  The
product is rounded correctly, the integer is the nearest one to the product, with halves going away
from zero, and whatever lies outside the 32 bits becomes the nearer end.  Every step keeps the
order, so longer times never become shorter ones.
-/

namespace Multirotor

open Binary32

variable {micros micros' : Binary32}

theorem thousand_between : (1000 : Binary32).Between 1000 1000 :=
  ofNat_between (n := 1000) (by norm_num)

theorem thousand_pos : 0 < (1000 : Binary32).value := by
  rw [thousand_between.value_eq]
  norm_num

theorem toNat_nanoseconds (micros : Binary32) :
    (nanoseconds micros).toNat = (micros * 1000).roundAway.toNatAtMost 4294967295 := by
  have fits := toNatAtMost_le_limit (micros * 1000).roundAway 4294967295
  rw [nanoseconds, toUInt32, UInt32.toNat_ofNat']
  omega

/-- Longer times do not get fewer nanoseconds. -/
theorem nanoseconds_mono (le : micros ≤ micros') : nanoseconds micros ≤ nanoseconds micros' := by
  rw [UInt32.le_iff_toNat_le, toNat_nanoseconds, toNat_nanoseconds]
  exact toNatAtMost_roundAway_mono (mul_le_mul_of_pos le thousand_between.finite thousand_pos) _

/-! ## Close approximations -/

section

variable {u : ℚ}

/-- A thousand times as many nanoseconds. -/
private theorem thousand_near (near : micros.Near u (1 / 2 ^ 12)) (range : 1 ≤ u ∧ u ≤ 2000) :
    (micros * 1000).Between 0 2001000 ∧
      (micros * 1000).Near (u * 1000) (1000 / 2 ^ 12 + 1 / 2 ^ 4) := by
  have thousand := thousand_between
  have lower := near.lower
  have upper := near.upper
  have micros_between : micros.Between 0 2001 :=
    ⟨near.finite, by push_cast; linarith, by push_cast; linarith⟩
  have product := near.mul_between (Near.of_between thousand) (a := 2001) (b := 1000)
    (micros_between.mono (by norm_num) le_rfl) (thousand.mono (by norm_num) le_rfl) (by norm_num)
    (k := 3) (by norm_num) (by norm_num)
  push_cast at product
  exact ⟨micros_between.mul_of_nonneg (thousand.mono (by norm_num) le_rfl) (by norm_num),
    product.mono (by norm_num)⟩

/-- Whole nanoseconds are less than one away. -/
theorem nanoseconds_close (near : micros.Near u (1 / 2 ^ 12)) (range : 1 ≤ u ∧ u ≤ 2000) :
    |((nanoseconds micros).toNat : ℚ) - u * 1000| < 1 := by
  obtain ⟨product_between, product_near⟩ := thousand_near near range
  have in_range : (micros * 1000).Between 0 (4294967295 : ℕ) :=
    product_between.mono le_rfl (by norm_num)
  rw [toNat_nanoseconds]
  calc
    |((micros * 1000).roundAway.toNatAtMost 4294967295 : ℚ) - u * 1000| ≤ _ + _ :=
      abs_sub_le _ _ _
    _ ≤ 1 / 2 + (1000 / 2 ^ 12 + 1 / 2 ^ 4) :=
      add_le_add (toNatAtMost_roundAway_close in_range) product_near.close
    _ < 1 := by norm_num

end

/-! ## The exact law -/

/-- The number is a thousand times another one, rounded once. -/
def IsThousandfold (micros product : Binary32) : Prop :=
  match micros with
  | nan => product = nan
  | infinity negative => product = infinity negative
  | finite _ _ => IsNearestEven (micros.value * 1000) product

/-- The count is the integer nearest to a number, the one further from zero of two equally near, and
the nearer end of the range where 32 bits do not hold that integer.  NaN counts as 0. -/
def IsCount (x : Binary32) (count : UInt32) : Prop :=
  match x with
  | nan => count = 0
  | infinity negative => count = if negative then 0 else 4294967295
  | finite _ _ => ∃ n : ℤ, IsNearestAway x.value n ∧ (count.toNat : ℤ) = max 0 (min n 4294967295)

theorem isThousandfold_mul (micros : Binary32) : IsThousandfold micros (micros * 1000) := by
  rcases micros with _ | negative | ⟨negative, rank⟩
  · rfl
  · exact infinity_mul negative thousand_between.finite thousand_pos
  · have rounded := mul_roundsTo (isFinite_finite negative rank) thousand_between.finite
    rw [thousand_between.value_eq] at rounded
    exact rounded.isNearestEven

theorem isCount_toUInt32 (x : Binary32) : IsCount x x.roundAway.toUInt32 := by
  rcases x with _ | negative | ⟨negative, rank⟩
  · rfl
  · cases negative <;> rfl
  · obtain ⟨n, rounds, count⟩ :=
      toNatAtMost_roundAway (isFinite_finite negative rank) 4294967295
    refine ⟨n, rounds, ?_⟩
    have fits := toNatAtMost_le_limit (finite negative rank).roundAway 4294967295
    rw [toUInt32, UInt32.toNat_ofNat', Nat.mod_eq_of_lt (by omega)]
    exact count

/-- Nanoseconds are the correctly rounded product with a thousand, rounded once more to the nearest
integer with halves going away from zero and limited to 32 bits; and they keep the order. -/
theorem nanoseconds_nearest_saturating (micros : Binary32) :
    IsThousandfold micros (micros * 1000) ∧ IsCount (micros * 1000) (nanoseconds micros) ∧
      ∀ micros', micros ≤ micros' → nanoseconds micros ≤ nanoseconds micros' :=
  ⟨isThousandfold_mul micros, isCount_toUInt32 (micros * 1000), fun _ le => nanoseconds_mono le⟩

/-- A sixteenth of a microsecond is 62.5 nanoseconds, which go up, and a time beyond 32 bits stays
at their end. -/
theorem nanoseconds_nearest_saturating_half :
    (0.0625 : Binary32) ≤ 3e38 ∧ (3e38 : Binary32) * 1000 = infinity false ∧
      nanoseconds 0.0625 = 63 ∧ nanoseconds 3e38 = 4294967295 ∧
      nanoseconds 0.0625 ≤ nanoseconds 3e38 := by
  have ordered : (0.0625 : Binary32) ≤ 3e38 := by decide
  exact ⟨ordered, by decide, by decide, by decide,
    (nanoseconds_nearest_saturating 0.0625).2.2 3e38 ordered⟩

end Multirotor
