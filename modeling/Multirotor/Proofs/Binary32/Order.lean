import Mathlib.Data.Nat.Log
import Multirotor.Proofs.Binary32.Alike
import Multirotor.Proofs.Binary32.Extremes

/-!
# The order of rounded results

Rounding keeps the order of exact values, so an operation that is monotone on exact numbers is
monotone on binary32 numbers, and a result is never on the wrong side of a number that bounds the
exact one.  The clamp keeps the order as well.  Equal quotients round to one number, so the quotient
of two small natural numbers is rounded only once.
-/

namespace Multirotor.Binary32

/-! ## Ranks -/

/-- Smaller quotients have smaller integer parts. -/
private theorem div_le_div_of_cross {num den num' den' : Nat} (positive : 0 < den)
    (positive' : 0 < den') (le : num * den' ≤ num' * den) : num / den ≤ num' / den' := by
  rw [Nat.le_div_iff_mul_le positive']
  apply Nat.le_of_mul_le_mul_right _ positive
  calc
    num / den * den' * den = num / den * den * den' := by ring
    _ ≤ num * den' := Nat.mul_le_mul_right _ (Nat.div_mul_le_self num den)
    _ ≤ num' * den := le

/-- Rounding to an integer keeps the order of quotients. -/
theorem nearestEven_mono {num den num' den' : Nat} (positive : 0 < den) (positive' : 0 < den')
    (le : num * den' ≤ num' * den) : nearestEven num den ≤ nearestEven num' den' := by
  have split_num := Nat.div_add_mod num den
  have split_num' := Nat.div_add_mod num' den'
  have floors := div_le_div_of_cross positive positive' le
  rcases floors.eq_or_lt with same | less
  · -- equal floors: the rests decide, and they compare as the quotients do
    have rests : num % den * den' ≤ num' % den' * den := by
      rw [← split_num, ← split_num', same] at le
      linarith [le]
    simp only [nearestEven, same]
    rcases lt_trichotomy (2 * (num % den)) den with below | half | above
    · rw [if_pos below]
      split
      · omega
      · split <;> omega
    · have half' : den' ≤ 2 * (num' % den') := by
        apply Nat.le_of_mul_le_mul_right _ positive
        calc
          den' * den = den' * (2 * (num % den)) := by rw [half]
          _ ≤ 2 * (num' % den') * den := by linarith [rests]
      rw [if_neg (by omega), if_neg (by omega), if_neg (by omega)]
      split <;> omega
    · have above' : den' < 2 * (num' % den') := by
        apply Nat.lt_of_mul_lt_mul_right (a := den)
        calc
          den' * den < den' * (2 * (num % den)) := Nat.mul_lt_mul_of_pos_left above positive'
          _ ≤ 2 * (num' % den') * den := by linarith [rests]
      rw [if_neg (by omega), if_pos above, if_neg (by omega), if_pos above']
  · calc
      nearestEven num den ≤ num / den + 1 := by
        apply nearestEven_le positive
        have rest := Nat.mod_lt num positive
        linarith [split_num]
      _ ≤ num' / den' := less
      _ ≤ nearestEven num' den' := le_nearestEven positive' (Nat.div_mul_le_self num' den')

/-- Rounding to a rank keeps the order of quotients. -/
theorem nearestRank_mono {num den num' den' : Nat} (positive : 0 < den) (positive' : 0 < den')
    (le : num * den' ≤ num' * den) : nearestRank num den ≤ nearestRank num' den' := by
  obtain ⟨upper, -⟩ := nearestRank_spacing num positive
  obtain ⟨-, lower⟩ := nearestRank_spacing num' positive'
  have floors := div_le_div_of_cross positive positive' le
  have shifts : (num / den).log2 - 23 ≤ (num' / den').log2 - 23 := by
    rw [Nat.log2_eq_log_two, Nat.log2_eq_log_two]
    exact Nat.sub_le_sub_right (Nat.log_mono_right floors) 23
  rw [nearestRank_eq, nearestRank_eq]
  set shift := (num / den).log2 - 23
  set shift' := (num' / den').log2 - 23
  have spacing : 0 < den * 2 ^ shift := Nat.mul_pos positive (Nat.two_pow_pos _)
  have spacing' : 0 < den' * 2 ^ shift' := Nat.mul_pos positive' (Nat.two_pow_pos _)
  rcases shifts.eq_or_lt with same | less
  · rw [← same] at spacing' ⊢
    apply Nat.add_le_add_right
    apply nearestEven_mono spacing spacing'
    calc
      num * (den' * 2 ^ shift) = num * den' * 2 ^ shift := by ring
      _ ≤ num' * den * 2 ^ shift := Nat.mul_le_mul_right _ le
      _ = num' * (den * 2 ^ shift) := by ring
  · -- a power of two separates the quotients
    have below := nearestEven_le spacing upper.le
    have above := le_nearestEven spacing' (lower.resolve_left (by omega))
    omega

/-- Ranks are ordered as the exact magnitudes that they round. -/
private theorem nearestRank_le_nearestRank {num den num' den' : Nat} (positive : 0 < den)
    (positive' : 0 < den') (le : (num / den / 2 ^ 149 : ℚ) ≤ num' / den' / 2 ^ 149) :
    nearestRank num den ≤ nearestRank num' den' := by
  have unit : (0 : ℚ) < 2 ^ 149 := by positivity
  have den_pos : (0 : ℚ) < den := by exact_mod_cast positive
  have den_pos' : (0 : ℚ) < den' := by exact_mod_cast positive'
  apply nearestRank_mono positive positive'
  rw [div_le_div_iff_of_pos_right unit, div_le_div_iff₀ den_pos den_pos'] at le
  exact_mod_cast le

private theorem place?_ofRatio (negative : Bool) (num den : Nat) :
    (ofRatio negative num den).place? =
      some (if negative then -(min (nearestRank num den) 0x7f800000 : Int)
        else min (nearestRank num den) 0x7f800000) := by
  rw [ofRatio]
  split
  · rename_i inside
    cases negative <;> simp [place?] <;> omega
  · rename_i beyond
    cases negative <;> simp [place?] <;> omega

/-- Rounding keeps the order of exact values. -/
theorem RoundsTo.mono {a b : ℚ} {x y : Binary32} (rounded_x : RoundsTo a x)
    (rounded_y : RoundsTo b y) (le : a ≤ b) : x ≤ y := by
  obtain ⟨s, num, den, positive, rfl, rfl⟩ := rounded_x
  obtain ⟨t, num', den', positive', rfl, rfl⟩ := rounded_y
  have nonneg : (0 : ℚ) ≤ num / den / 2 ^ 149 := by positivity
  have nonneg' : (0 : ℚ) ≤ num' / den' / 2 ^ 149 := by positivity
  refine le_iff.mpr ⟨_, _, place?_ofRatio s num den, place?_ofRatio t num' den', ?_⟩
  cases s <;> cases t <;>
    simp only [Bool.false_eq_true, if_false, if_true, one_mul, neg_mul] at le ⊢
  · have ranks := nearestRank_le_nearestRank positive positive' le
    omega
  · -- a value that is not negative is not above one that is not positive: both are zero
    have zero : nearestRank num den ≤ nearestRank 0 1 :=
      nearestRank_le_nearestRank positive Nat.one_pos (by simp only [Nat.cast_zero]; linarith)
    have zero' : nearestRank num' den' ≤ nearestRank 0 1 :=
      nearestRank_le_nearestRank positive' Nat.one_pos (by simp only [Nat.cast_zero]; linarith)
    have least : nearestRank 0 1 = 0 := rfl
    omega
  · -- a negative sign before, none after
    omega
  · have ranks := nearestRank_le_nearestRank positive' positive (neg_le_neg_iff.mp le)
    omega

/-! ## Numbers -/

variable {x y z : Binary32} {exact : ℚ}

protected theorem le_trans (first : x ≤ y) (second : y ≤ z) : x ≤ z := by
  obtain ⟨a, b, place_x, place_y, le⟩ := le_iff.mp first
  obtain ⟨b', c, place_y', place_z, le'⟩ := le_iff.mp second
  obtain rfl : b = b' := Option.some.inj (place_y.symm.trans place_y')
  exact le_iff.mpr ⟨a, c, place_x, place_z, le.trans le'⟩

theorem not_lt_of_le (le : x ≤ y) : ¬ y < x := by
  obtain ⟨a, b, place_x, place_y, ordered⟩ := le_iff.mp le
  simpa [lt_iff, place_x, place_y] using ordered

theorem le_infinity (number : x ≠ nan) : x ≤ infinity false := by
  rcases x with _ | ⟨_ | _⟩ | ⟨_ | _, rank⟩ <;> simp [le_iff, place?] at number ⊢

theorem infinity_le (number : x ≠ nan) : infinity true ≤ x := by
  rcases x with _ | ⟨_ | _⟩ | ⟨_ | _, rank⟩ <;> simp [le_iff, place?] at number ⊢

/-- Numbers in order are finite unless one of them is the infinity on its side. -/
theorem infinity_or_isFinite_of_le (le : x ≤ y) :
    (x = infinity true ∧ y ≠ nan) ∨ (x ≠ nan ∧ y = infinity false) ∨
      (x.IsFinite ∧ y.IsFinite) := by
  obtain ⟨a, b, place_x, place_y, ordered⟩ := le_iff.mp le
  rcases x with _ | ⟨_ | _⟩ | ⟨_ | _, i⟩ <;> rcases y with _ | ⟨_ | _⟩ | ⟨_ | _, j⟩ <;>
    simp [place?] at place_x place_y ⊢
  all_goals omega

/-- Numbers on no side of each other are alike. -/
theorem alike_of_le_of_le (below : x ≤ y) (above : y ≤ x) : x.Alike y := by
  obtain ⟨a, b, place_x, place_y, le⟩ := le_iff.mp below
  obtain ⟨b', a', place_y', place_x', le'⟩ := le_iff.mp above
  rw [place_x] at place_x'
  rw [place_y] at place_y'
  cases place_x'
  cases place_y'
  rw [Alike, place_x, place_y, Int.le_antisymm le le']

/-- The value of a number decides its place. -/
theorem alike_of_value_eq (finite_x : x.IsFinite) (finite_y : y.IsFinite)
    (same : x.value = y.value) : x.Alike y :=
  alike_of_le_of_le ((le_iff_value finite_x finite_y).mpr same.le)
    ((le_iff_value finite_y finite_x).mpr same.ge)

/-- Rounding the value of a number yields the number up to the sign of a zero. -/
theorem RoundsTo.alike (rounded : RoundsTo y.value x) (finite_y : y.IsFinite) : x.Alike y := by
  obtain ⟨finite_x, same⟩ := rounded.value_eq finite_y
  exact alike_of_value_eq finite_x finite_y same

/-! ## Sums and products with zero and one -/

theorem Alike.abs_of_zero (zero : x.Alike 0) : x.abs.Alike 0 := by
  rcases alike_iff.mp zero with rfl | ⟨s, t, rfl, -⟩
  · rfl
  · exact alike_finite_zero false false

theorem add_zero_alike (finite_x : x.IsFinite) : (x + 0).Alike x := by
  have rounded := add_roundsTo finite_x zero_between.finite
  rw [value_zero, add_zero] at rounded
  exact rounded.alike finite_x

theorem mul_one_alike (finite_x : x.IsFinite) : (x * 1).Alike x := by
  have rounded := mul_roundsTo finite_x one_between.finite
  rw [value_one, mul_one] at rounded
  exact rounded.alike finite_x

theorem Alike.mul_of_zero (zero : x.Alike 0) (finite_y : y.IsFinite) : (x * y).Alike 0 := by
  have rounded := mul_roundsTo zero_between.finite finite_y
  rw [value_zero, zero_mul, ← value_zero] at rounded
  exact (zero.mul (.refl y)).trans (rounded.alike zero_between.finite)

/-! ## Results between numbers -/

namespace RoundsTo

theorem ne_nan (rounded : RoundsTo exact x) : x ≠ nan := ne_nan_of_le (rounded.mono rounded le_rfl)

/-- A number is the sum of itself and zero up to the sign of a zero. -/
private theorem exists_roundsTo_value (finite_x : x.IsFinite) :
    ∃ y, RoundsTo x.value y ∧ x ≤ y ∧ y ≤ x := by
  have rounded := add_roundsTo finite_x zero_between.finite
  rw [value_zero, add_zero] at rounded
  exact ⟨x + 0, rounded, ((rounded.alike finite_x).le_and_le finite_x.ne_nan).symm⟩

/-- Rounding does not go below a number that is not above the exact value. -/
theorem le_of_value_le (rounded : RoundsTo exact y) (finite_x : x.IsFinite)
    (le : x.value ≤ exact) : x ≤ y := by
  obtain ⟨x', rounded', below, -⟩ := exists_roundsTo_value finite_x
  exact Binary32.le_trans below (rounded'.mono rounded le)

/-- Rounding does not go above a number that is not below the exact value. -/
theorem le_of_le_value (rounded : RoundsTo exact x) (finite_y : y.IsFinite)
    (le : exact ≤ y.value) : x ≤ y := by
  obtain ⟨y', rounded', -, above⟩ := exists_roundsTo_value finite_y
  exact Binary32.le_trans (rounded.mono rounded' le) above

theorem nonneg (rounded : RoundsTo exact x) (le : 0 ≤ exact) : 0 ≤ x :=
  rounded.le_of_value_le zero_between.finite (value_zero.trans_le le)

theorem nonpos (rounded : RoundsTo exact x) (le : exact ≤ 0) : x ≤ 0 :=
  rounded.le_of_le_value zero_between.finite (le.trans_eq value_zero.symm)

end RoundsTo

/-! ## Products with a positive number -/

theorem infinity_mul (negative : Bool) (finite_z : z.IsFinite) (positive : 0 < z.value) :
    infinity negative * z = infinity negative := by
  obtain ⟨sign, rank, rfl⟩ := finite_z.exists_eq
  have nonneg : (0 : ℚ) ≤ magnitude rank / 2 ^ 149 := by positivity
  cases sign with
  | true =>
    simp only [value, units, if_true, Int.cast_neg, Int.cast_natCast, neg_div] at positive
    linarith
  | false =>
    have nonzero : rank.val ≠ 0 := by
      intro zero
      simp [value, units, zero, magnitude_zero] at positive
    change mul (infinity negative) (finite false rank) = infinity negative
    rw [mul, if_neg nonzero, Bool.bne_false]

theorem mul_ne_nan (number : x ≠ nan) (finite_z : z.IsFinite) (positive : 0 < z.value) :
    x * z ≠ nan := by
  rcases x with _ | negative | ⟨negative, rank⟩
  · exact absurd rfl number
  · rw [infinity_mul negative finite_z positive]
    simp
  · exact (mul_roundsTo (isFinite_finite negative rank) finite_z).ne_nan

/-- Multiplying by a positive number keeps the order, overflow included. -/
theorem mul_le_mul_of_pos (le : x ≤ y) (finite_z : z.IsFinite) (positive : 0 < z.value) :
    x * z ≤ y * z := by
  rcases infinity_or_isFinite_of_le le with ⟨rfl, number⟩ | ⟨number, rfl⟩ | ⟨finite_x, finite_y⟩
  · rw [infinity_mul true finite_z positive]
    exact infinity_le (mul_ne_nan number finite_z positive)
  · rw [infinity_mul false finite_z positive]
    exact le_infinity (mul_ne_nan number finite_z positive)
  · exact (mul_roundsTo finite_x finite_z).mono (mul_roundsTo finite_y finite_z)
      (mul_le_mul_of_nonneg_right ((le_iff_value finite_x finite_y).mp le) positive.le)

/-! ## The clamp -/

/-- The clamp is the clamp of places. -/
theorem place?_clampUnit {place : Int} (place_x : x.place? = some place) :
    (clampUnit x).place? = some (max 0 (min 0x3f800000 place)) := by
  have zero : (0 : Binary32).place? = some 0 := by decide
  have one : (1 : Binary32).place? = some 0x3f800000 := by decide
  have below : x < 0 ↔ place < 0 := by simp [lt_iff, place_x, zero]
  have above : 1 < x ↔ 0x3f800000 < place := by simp [lt_iff, place_x, one]
  simp only [clampUnit, below, above, apply_ite place?, place_x, zero, one]
  split
  · congr 1
    omega
  · split <;> congr 1 <;> omega

theorem clampUnit_mono (le : x ≤ y) : clampUnit x ≤ clampUnit y := by
  obtain ⟨a, b, place_x, place_y, ordered⟩ := le_iff.mp le
  exact le_iff.mpr ⟨_, _, place?_clampUnit place_x, place?_clampUnit place_y, by omega⟩

/-- Whatever is a number is moved into the unit interval. -/
theorem clampUnit_mem (number : x ≠ nan) : 0 ≤ clampUnit x ∧ clampUnit x ≤ 1 := by
  obtain ⟨place, place_x⟩ := exists_place number
  have clamped := place?_clampUnit place_x
  exact ⟨le_iff.mpr ⟨0, _, by decide, clamped, by omega⟩,
    le_iff.mpr ⟨_, 0x3f800000, clamped, by decide, by omega⟩⟩

/-- The clamp leaves the unit interval as it is. -/
theorem clampUnit_eq_self (unit : 0 ≤ x ∧ x ≤ 1) : clampUnit x = x := by
  rw [clampUnit, if_neg (not_lt_of_le unit.1), if_neg (not_lt_of_le unit.2)]

/-! ## Quotients of whole numbers -/

/-- Equal quotients round to one number. -/
theorem ofRatio_congr {num den num' den' : Nat} (positive : 0 < den) (positive' : 0 < den')
    (same : num * den' = num' * den) (negative : Bool) :
    ofRatio negative num den = ofRatio negative num' den' := by
  have ranks : nearestRank num den = nearestRank num' den' :=
    le_antisymm (nearestRank_mono positive positive' same.le)
      (nearestRank_mono positive' positive same.ge)
  simp only [ofRatio, ranks]

/-- A small natural number is a positive finite number. -/
theorem exists_ofNat_eq {n : Nat} (small : n ≤ 2 ^ 24) :
    ∃ rank, ofNat n = finite false rank ∧ magnitude rank = n * 2 ^ 149 := by
  obtain ⟨rank, in_range, rank_eq⟩ := exists_magnitude small (by norm_num : 149 ≤ 252)
  have nearest : nearestRank (n <<< 149) 1 = rank := by
    rw [Nat.shiftLeft_eq]
    exact le_antisymm (nearestRank_le Nat.one_pos (by rw [rank_eq, mul_one]))
      (le_nearestRank Nat.one_pos (by rw [rank_eq, mul_one]))
  refine ⟨⟨rank, in_range⟩, ?_, rank_eq⟩
  simp only [ofNat, ofRatio, nearest, dif_pos in_range]

/-- The quotient of two small natural numbers is their exact quotient, rounded once. -/
theorem ofNat_div_ofNat {n m : Nat} (small_n : n ≤ 2 ^ 24) (small_m : m ≤ 2 ^ 24)
    (positive : 0 < m) : ofNat n / ofNat m = ofRatio false (n <<< 149) m := by
  obtain ⟨a, n_eq, magnitude_a⟩ := exists_ofNat_eq small_n
  obtain ⟨b, m_eq, magnitude_b⟩ := exists_ofNat_eq small_m
  have positive_b : 0 < magnitude b := by
    rw [magnitude_b]
    positivity
  have nonzero : b.val ≠ 0 := by
    intro zero
    rw [zero, magnitude_zero] at positive_b
    exact positive_b.false
  rw [n_eq, m_eq]
  change div (finite false a) (finite false b) = _
  rw [div, if_neg nonzero]
  apply ofRatio_congr positive_b positive
  rw [magnitude_a, magnitude_b, Nat.shiftLeft_eq, Nat.shiftLeft_eq]
  ring

end Multirotor.Binary32
