import Multirotor.Proofs.Binary32.Rounding

/-!
# Integer bounds on binary32 numbers

`x.Between lo hi` says that `x` is finite and that its value lies between two integers.  Bounds of
this kind go through every operation as long as they stay below `2 ^ 24`, because such integers are
numbers themselves and rounding does not pass them.
-/

namespace Multirotor.Binary32

/-- A finite number whose value lies between two integers. -/
structure Between (x : Binary32) (lo hi : ℤ) : Prop where
  /-- The number is finite. -/
  finite : x.IsFinite
  /-- The value is not below the lower bound. -/
  lower : lo ≤ x.value
  /-- The value is not above the upper bound. -/
  upper : x.value ≤ hi

variable {x y : Binary32} {a b c d : ℤ}

/-- Rounding does not carry an exact value past an integer. -/
theorem RoundsTo.between {exact : ℚ} (rounded : RoundsTo exact x) (lower : a ≤ exact)
    (upper : exact ≤ b) (small : -2 ^ 24 ≤ a ∧ b ≤ 2 ^ 24) : x.Between a b := by
  have ordered : a ≤ b := by exact_mod_cast lower.trans upper
  obtain ⟨bottom, finite_bottom, bottom_eq⟩ := exists_value_eq_int (n := a) (by omega)
  obtain ⟨top, finite_top, top_eq⟩ := exists_value_eq_int (n := b) (by omega)
  rw [← bottom_eq] at lower
  rw [← top_eq] at upper
  have bounds := rounded.bounds finite_bottom finite_top lower upper
  exact ⟨bounds.1, bottom_eq ▸ bounds.2.1, top_eq ▸ bounds.2.2⟩

namespace Between

/-- A number bounded by one integer from both sides is that integer. -/
theorem value_eq (hx : x.Between a a) : x.value = a := le_antisymm hx.upper hx.lower

theorem value_nonneg (hx : x.Between 0 b) : 0 ≤ x.value := by exact_mod_cast hx.lower

theorem value_le_one (hx : x.Between a 1) : x.value ≤ 1 := by exact_mod_cast hx.upper

theorem mono (hx : x.Between a b) (lower : c ≤ a) (upper : b ≤ d) : x.Between c d where
  finite := hx.finite
  lower := le_trans (by exact_mod_cast lower) hx.lower
  upper := hx.upper.trans (by exact_mod_cast upper)

theorem neg (hx : x.Between a b) : (-x).Between (-b) (-a) where
  finite := isFinite_neg.mpr hx.finite
  lower := by
    rw [value_neg]
    push_cast
    exact neg_le_neg hx.upper
  upper := by
    rw [value_neg]
    push_cast
    exact neg_le_neg hx.lower

theorem abs (hx : x.Between (-b) b) : x.abs.Between 0 b where
  finite := isFinite_abs.mpr hx.finite
  lower := by
    rw [value_abs]
    exact_mod_cast abs_nonneg x.value
  upper := by
    rw [value_abs, abs_le]
    exact ⟨by exact_mod_cast hx.lower, hx.upper⟩

theorem add (hx : x.Between a b) (hy : y.Between c d) (small : -2 ^ 24 ≤ a + c ∧ b + d ≤ 2 ^ 24) :
    (x + y).Between (a + c) (b + d) := by
  apply (add_roundsTo hx.finite hy.finite).between _ _ small
  · push_cast
    exact add_le_add hx.lower hy.lower
  · push_cast
    exact add_le_add hx.upper hy.upper

theorem sub (hx : x.Between a b) (hy : y.Between c d) (small : -2 ^ 24 ≤ a - d ∧ b - c ≤ 2 ^ 24) :
    (x - y).Between (a - d) (b - c) := by
  apply (sub_roundsTo hx.finite hy.finite).between _ _ small
  · push_cast
    exact sub_le_sub hx.lower hy.upper
  · push_cast
    exact sub_le_sub hx.upper hy.lower

/-- The product of two bounded magnitudes. -/
theorem mul (hx : x.Between (-b) b) (hy : y.Between (-d) d) (small : b * d ≤ 2 ^ 24) :
    (x * y).Between (-(b * d)) (b * d) := by
  have left : |x.value| ≤ b := abs_le.mpr ⟨by exact_mod_cast hx.lower, hx.upper⟩
  have right : |y.value| ≤ d := abs_le.mpr ⟨by exact_mod_cast hy.lower, hy.upper⟩
  have product : |x.value * y.value| ≤ b * d := by
    rw [abs_mul]
    exact mul_le_mul left right (abs_nonneg _) ((abs_nonneg _).trans left)
  obtain ⟨lower, upper⟩ := abs_le.mp product
  exact (mul_roundsTo hx.finite hy.finite).between (by exact_mod_cast lower)
    (by exact_mod_cast upper) ⟨by omega, small⟩

/-- The product of two numbers that are not negative. -/
theorem mul_of_nonneg (hx : x.Between 0 b) (hy : y.Between 0 d) (small : b * d ≤ 2 ^ 24) :
    (x * y).Between 0 (b * d) := by
  apply (mul_roundsTo hx.finite hy.finite).between _ _ ⟨by norm_num, small⟩
  · exact_mod_cast mul_nonneg hx.value_nonneg hy.value_nonneg
  · push_cast
    exact mul_le_mul hx.upper hy.upper hy.value_nonneg (hx.value_nonneg.trans hx.upper)

/-- The quotient of a number that is not negative and a larger one. -/
theorem div_of_le (finite_x : x.IsFinite) (finite_y : y.IsFinite) (nonneg : 0 ≤ x.value)
    (positive : 0 < y.value) (le : x.value ≤ y.value) : (x / y).Between 0 1 := by
  apply (div_roundsTo finite_x finite_y positive.ne').between _ _ ⟨by norm_num, by norm_num⟩
  · exact_mod_cast div_nonneg nonneg positive.le
  · rw [div_le_iff₀ positive]
    simpa using le

end Between

/-! ## Numerals and the order -/

theorem ofNat_between {n : Nat} (small : n ≤ 2 ^ 24) : (ofNat n).Between n n :=
  (ofNat_roundsTo n).between (by simp) (by simp) ⟨by omega, by omega⟩

theorem value_ofNat {n : Nat} (small : n ≤ 2 ^ 24) : (ofNat n).value = n := by
  exact_mod_cast (ofNat_between small).value_eq

theorem value_zero : (0 : Binary32).value = 0 :=
  (value_ofNat (n := 0) (by norm_num)).trans Nat.cast_zero

theorem value_one : (1 : Binary32).value = 1 :=
  (value_ofNat (n := 1) (by norm_num)).trans Nat.cast_one

theorem zero_between : (0 : Binary32).Between 0 0 := ofNat_between (n := 0) (by norm_num)

theorem one_between : (1 : Binary32).Between 1 1 := ofNat_between (n := 1) (by norm_num)

theorem nonneg_iff_value (finite_x : x.IsFinite) : 0 ≤ x ↔ 0 ≤ x.value := by
  rw [le_iff_value zero_between.finite finite_x, value_zero]

theorem nonpos_iff_value (finite_x : x.IsFinite) : x ≤ 0 ↔ x.value ≤ 0 := by
  rw [le_iff_value finite_x zero_between.finite, value_zero]

theorem pos_iff_value (finite_x : x.IsFinite) : 0 < x ↔ 0 < x.value := by
  rw [lt_iff_value zero_between.finite finite_x, value_zero]

theorem neg_iff_value (finite_x : x.IsFinite) : x < 0 ↔ x.value < 0 := by
  rw [lt_iff_value finite_x zero_between.finite, value_zero]

theorem hundred_between : (100 : Binary32).Between 100 100 := ofNat_between (n := 100) (by norm_num)

/-- A number of percent as a fraction. -/
theorem percentage_between {n k : Nat} (le : n ≤ 100 * k) (small : 100 * k ≤ 2 ^ 24) :
    (ofNat n / 100).Between 0 k := by
  have hundred : (100 : Binary32).value = 100 := value_ofNat (n := 100) (by norm_num)
  have numerator : (ofNat n).value = n := value_ofNat (le.trans small)
  have quotient := div_roundsTo (ofNat_between (le.trans small)).finite hundred_between.finite
    (by rw [hundred]; norm_num)
  rw [hundred, numerator] at quotient
  have le_rat : (n : ℚ) ≤ 100 * k := by exact_mod_cast le
  apply quotient.between _ _ ⟨by norm_num, by omega⟩
  · push_cast
    exact div_nonneg (Nat.cast_nonneg n) (by norm_num)
  · push_cast
    linarith

/-- A number between two numerals of the order lies between their values. -/
theorem between_of_le {lo hi : Binary32} (hlo : lo.Between a b) (hhi : hi.Between c d)
    (lower : lo ≤ x) (upper : x ≤ hi) : x.Between a d := by
  have finite_x := isFinite_of_le_of_le hlo.finite hhi.finite lower upper
  rw [le_iff_value hlo.finite finite_x] at lower
  rw [le_iff_value finite_x hhi.finite] at upper
  exact ⟨finite_x, hlo.lower.trans lower, upper.trans hhi.upper⟩

theorem le_of_between (hx : x.Between a b) (hy : y.Between c d) (ordered : b ≤ c) : x ≤ y := by
  rw [le_iff_value hx.finite hy.finite]
  exact hx.upper.trans (le_trans (by exact_mod_cast ordered) hy.lower)

/-- The reciprocal of a number above 1 is a fraction of 1. -/
theorem one_div_between (finite_x : x.IsFinite) (above : 1 < x) : (1 / x).Between 0 1 := by
  rw [lt_iff_value one_between.finite finite_x, value_one] at above
  apply Between.div_of_le one_between.finite finite_x
  · rw [value_one]
    exact zero_le_one
  · exact zero_lt_one.trans above
  · rw [value_one]
    exact above.le

theorem ne_nan_of_le {lo : Binary32} (lower : lo ≤ x) : x ≠ nan := by
  rintro rfl
  rw [le_iff] at lower
  obtain ⟨_, _, _, impossible, _⟩ := lower
  cases impossible

end Multirotor.Binary32
