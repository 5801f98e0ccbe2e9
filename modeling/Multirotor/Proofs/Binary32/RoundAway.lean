import Multirotor.Binary32.Integer
import Multirotor.Proofs.Binary32.NearestEven
import Multirotor.Proofs.Binary32.Order

/-!
# Rounding to an integer

A number is rounded to an integer by adding just less than a half, away from zero, and cutting off
the fraction.  The sum is itself rounded, yet the integer is always the nearest one, and a half goes
away from zero.  As a natural number it is cut to a limit, which keeps the order of numbers.
-/

namespace Multirotor.Binary32

variable {x y : Binary32}

/-! ## Nearest integers -/

/-- The integer is nearest to a value and, of two equally near, the one further from zero. -/
structure IsNearestAway (exact : ℚ) (n : ℤ) : Prop where
  /-- No integer is nearer. -/
  nearest (k : ℤ) : |n - exact| ≤ |k - exact|
  /-- No integer that is as near is further from zero. -/
  away (k : ℤ) : |k - exact| = |n - exact| → |k| ≤ |n|

namespace IsNearestAway

variable {u v : ℚ} {m n : ℤ}

theorem neg (rounds : IsNearestAway u n) : IsNearestAway (-u) (-n) := by
  have mirror (k : ℤ) : |(k : ℚ) - -u| = |((-k : ℤ) : ℚ) - u| := by
    push_cast
    rw [← abs_neg, neg_sub', neg_neg]
  refine ⟨fun k => ?_, fun k same => ?_⟩
  · rw [mirror, mirror, neg_neg]
    exact rounds.nearest (-k)
  · rw [mirror, mirror, neg_neg] at same
    rw [← abs_neg, abs_neg n]
    exact rounds.away (-k) same

/-- A value that is not negative goes to the integer part of its sum with a half. -/
theorem of_nonneg (nonneg : 0 ≤ u) : IsNearestAway u ⌊u + 1 / 2⌋ := by
  have below := Int.floor_le (u + 1 / 2)
  have above := Int.lt_floor_add_one (u + 1 / 2)
  set n := ⌊u + 1 / 2⌋ with n_eq
  have n_nonneg : 0 ≤ n := Int.floor_nonneg.mpr (by linarith)
  have close : |(n : ℚ) - u| ≤ 1 / 2 := abs_le.mpr ⟨by linarith, by linarith⟩
  refine ⟨fun k => ?_, fun k same => ?_⟩
  · rcases lt_trichotomy k n with less | rfl | more
    · have step : (k + 1 : ℚ) ≤ n := by exact_mod_cast less
      exact close.trans (le_trans (by linarith) (neg_le_abs _))
    · exact le_rfl
    · have step : (n + 1 : ℚ) ≤ k := by exact_mod_cast more
      exact close.trans (le_trans (by linarith) (le_abs_self _))
  · obtain ⟨lower, upper⟩ := abs_le.mp (same.trans_le close)
    have k_nonneg : (-1 : ℚ) < k := by linarith
    have k_le : (k : ℚ) < n + 1 := by linarith
    have k_nonneg : -1 < k := by exact_mod_cast k_nonneg
    have k_le : k < n + 1 := by exact_mod_cast k_le
    rw [abs_of_nonneg (by omega), abs_of_nonneg n_nonneg]
    omega

/-- The integer is no more than a half away. -/
theorem close (rounds : IsNearestAway u n) : |n - u| ≤ 1 / 2 := by
  have half := abs_sub_round u
  rw [abs_sub_comm] at half
  exact (rounds.nearest (round u)).trans half

/-- Rounding to an integer keeps the order; in particular the integer is unique. -/
theorem mono (rounds : IsNearestAway u n) (rounds' : IsNearestAway v m) (le : u ≤ v) : n ≤ m := by
  by_contra! less
  have less_rat : (m : ℚ) < n := by exact_mod_cast less
  have above : (m + n : ℚ) ≤ 2 * u := by
    have squares := sq_le_sq.mpr (rounds.nearest m)
    nlinarith
  have below : 2 * v ≤ (m + n : ℚ) := by
    have squares := sq_le_sq.mpr (rounds'.nearest n)
    nlinarith
  -- both values are the midpoint, from which the two integers are equally far
  obtain rfl : u = v := by linarith
  have tie : |(m : ℚ) - u| = |(n : ℚ) - u| := by
    rw [show (m : ℚ) - u = -(n - u) by linarith, abs_neg]
  have same_size := le_antisymm (rounds.away m tie) (rounds'.away n tie.symm)
  rcases abs_eq_abs.mp same_size with same | mirrored
  · exact less.ne same
  · -- opposite integers: the midpoint is zero, an integer itself
    have zero : u = 0 := by
      have mirrored : (m : ℚ) = -n := by exact_mod_cast mirrored
      linarith
    have nearest := rounds.nearest 0
    rw [zero, Int.cast_zero, sub_zero, sub_zero, abs_zero, abs_nonpos_iff] at nearest
    have n_zero : n = 0 := by exact_mod_cast nearest
    omega

end IsNearestAway

/-! ## The spacing of numbers -/

/-- Numbers of at least `2 ^ 23 / 2 ^ k` are multiples of `1 / 2 ^ k`. -/
theorem exists_eq_div_of_le (finite_x : x.IsFinite) {k : Nat} (fine : k ≤ 149)
    (large : 2 ^ 23 ≤ |x.value| * 2 ^ k) : ∃ n : ℤ, x.value = n / 2 ^ k := by
  obtain ⟨negative, rank, rfl⟩ := finite_x.exists_eq
  have unit : (2 : ℚ) ^ 149 = 2 ^ (149 - k) * 2 ^ k := by
    rw [← pow_add, Nat.sub_add_cancel fine]
  have bottom : 2 ^ 23 + (149 - k) * 2 ^ 23 ≤ rank := by
    rw [← magnitude_strictMono.le_iff_le, magnitude_shift (by norm_num) (.inl le_rfl)]
    rw [← value_abs] at large
    simp only [Binary32.abs, value, units, Bool.false_eq_true, if_false, Int.cast_natCast] at large
    rw [unit, ← div_div, div_mul_cancel₀ _ (by positivity), le_div_iff₀ (by positivity)] at large
    exact_mod_cast large
  obtain ⟨n, n_eq⟩ : 2 ^ (149 - k) ∣ magnitude rank := by
    rw [magnitude_eq, if_neg (by omega)]
    exact Dvd.dvd.mul_left (Nat.pow_dvd_pow 2 (by omega)) _
  refine ⟨if negative then -n else n, ?_⟩
  rw [value, units, n_eq, unit]
  cases negative <;> push_cast <;> field_simp
  simp

/-- From `2 ^ 23` on the numbers are integers. -/
private theorem exists_eq_int_of_le (finite_x : x.IsFinite) (large : 2 ^ 23 ≤ x.value) :
    ∃ n : ℤ, x.value = n := by
  simpa using exists_eq_div_of_le finite_x (Nat.zero_le 149) (by
    rw [pow_zero, mul_one]
    exact large.trans (le_abs_self _))

/-- Multiples of `1 / 2 ^ k` less than that apart are equal. -/
private theorem eq_of_grid {u v : ℚ} {k : Nat} {m n : ℤ} (u_eq : u = m / 2 ^ k)
    (v_eq : v = n / 2 ^ k) (close : |u - v| * 2 ^ k < 1) : u = v := by
  have grid_pos : (0 : ℚ) < 2 ^ k := by positivity
  rw [u_eq, v_eq, ← sub_div, abs_div, abs_of_pos grid_pos, div_mul_cancel₀ _ grid_pos.ne'] at close
  have close : |m - n| < 1 := by exact_mod_cast close
  rw [u_eq, v_eq, sub_eq_zero.mp (Int.abs_lt_one_iff.mp close)]

/-- A number from a half up to `2 ^ 23` has a significand of 24 binary digits, the last one standing
for at most a half. -/
private theorem exists_significand (finite_x : x.IsFinite) (lower : 1 / 2 ≤ x.value)
    (upper : x.value < 2 ^ 23) :
    ∃ n k : Nat, (2 ^ 23 ≤ n ∧ n < 2 ^ 24) ∧ (1 ≤ k ∧ k ≤ 24) ∧ x.value = n / 2 ^ k := by
  obtain ⟨rank, -, rank_eq⟩ := finite_x.value_of_nonneg (le_trans (by norm_num) lower)
  have unit : (0 : ℚ) < 2 ^ 149 := by positivity
  rw [rank_eq] at lower upper ⊢
  have above : 2 ^ 23 + 125 * 2 ^ 23 ≤ rank := by
    rw [← magnitude_strictMono.le_iff_le, magnitude_shift (by norm_num) (.inl le_rfl)]
    rw [le_div_iff₀ unit] at lower
    norm_num at lower ⊢
    exact_mod_cast lower
  have below : rank < 2 ^ 23 + 149 * 2 ^ 23 := by
    rw [← magnitude_strictMono.lt_iff_lt, magnitude_shift (by norm_num) (.inl le_rfl)]
    rw [div_lt_iff₀ unit] at upper
    exact_mod_cast upper
  obtain ⟨n, shift, n_range, rfl⟩ :
      ∃ n shift, (2 ^ 23 ≤ n ∧ n < 2 ^ 24) ∧ rank = n + shift * 2 ^ 23 :=
    ⟨2 ^ 23 + rank % 2 ^ 23, rank / 2 ^ 23 - 1, by omega, by omega⟩
  refine ⟨n, 149 - shift, n_range, by omega, ?_⟩
  have split : (2 : ℚ) ^ 149 = 2 ^ shift * 2 ^ (149 - shift) := by
    rw [← pow_add]
    congr 1
    omega
  rw [magnitude_shift n_range.2.le (.inl n_range.1), split, Nat.cast_mul, Nat.cast_pow,
    Nat.cast_ofNat, mul_comm, mul_div_mul_left _ _ (by positivity)]

/-! ## Integer parts -/

private theorem truncate_roundsTo (negative : Bool) (rank : Fin 0x7f800000) :
    RoundsTo ((if negative then -1 else 1) * (magnitude rank / 2 ^ 149 : Nat))
      (finite negative rank).truncate := by
  refine ⟨negative, magnitude rank / 2 ^ 149 * 2 ^ 149, 1, Nat.one_pos, ?_, ?_⟩
  · rw [truncate, Nat.shiftLeft_eq, Nat.shiftRight_eq_div_pow]
  · rw [Nat.cast_mul, Nat.cast_pow, Nat.cast_one, div_one, Nat.cast_ofNat,
      mul_div_cancel_right₀ _ (by positivity)]

private theorem floor_magnitude (rank : Nat) :
    ⌊(magnitude rank / 2 ^ 149 : ℚ)⌋ = ((magnitude rank / 2 ^ 149 : Nat) : ℤ) := by
  have quotient := Rat.floor_natCast_div_natCast (magnitude rank) (2 ^ 149)
  push_cast at quotient ⊢
  exact quotient

/-- Every integer part of a number is a number itself. -/
private theorem exists_value_eq_floor (finite_x : x.IsFinite) (nonneg : 0 ≤ x.value) :
    ∃ y : Binary32, y.IsFinite ∧ y.value = ⌊x.value⌋ := by
  rcases lt_or_ge x.value (2 ^ 24) with small | large
  · have floor_nonneg := Int.floor_nonneg.mpr nonneg
    have floor_lt : ⌊x.value⌋ < 2 ^ 24 := Int.floor_lt.mpr (by exact_mod_cast small)
    exact exists_value_eq_int (by omega)
  · obtain ⟨n, whole⟩ := exists_eq_int_of_le finite_x (le_trans (by norm_num) large)
    exact ⟨x, finite_x, by rw [whole, Int.floor_intCast]⟩

/-- The integer part of a number that is not negative is the largest integer not above it. -/
theorem truncate_value (finite_x : x.IsFinite) (nonneg : 0 ≤ x.value) :
    x.truncate.IsFinite ∧ x.truncate.value = ⌊x.value⌋ := by
  obtain ⟨y, finite_y, y_eq⟩ := exists_value_eq_floor finite_x nonneg
  obtain ⟨negative, rank, rfl⟩ := finite_x.exists_eq
  have rounded := truncate_roundsTo negative rank
  have whole : ((if negative then -1 else 1) * (magnitude rank / 2 ^ 149 : Nat) : ℚ) = y.value := by
    rw [y_eq]
    cases negative with
    | false =>
      simp only [value, units, Bool.false_eq_true, if_false, one_mul, Int.cast_natCast]
      rw [floor_magnitude, Int.cast_natCast]
    | true =>
      -- only a zero carries a sign here
      simp only [value, units, if_true, Int.cast_neg, Int.cast_natCast, neg_div] at nonneg ⊢
      have size : (0 : ℚ) ≤ magnitude rank / 2 ^ 149 := by positivity
      have zero : (magnitude rank : ℚ) / 2 ^ 149 = 0 := by linarith
      have part := floor_magnitude rank
      rw [zero, Int.floor_zero] at part
      rw [zero, ← Int.cast_natCast (R := ℚ), ← part]
      simp
  rw [whole] at rounded
  rw [← y_eq]
  exact rounded.value_eq finite_y

/-! ## The sum with just less than a half -/

private theorem value_belowHalf : belowHalf.value = 1 / 2 - 1 / 2 ^ 25 := by
  have rank : magnitude 0x3effffff = 16777215 * 2 ^ 124 := by decide
  simp only [belowHalf, value, units, Bool.false_eq_true, if_false, rank]
  norm_num

/-- The sum is a value less than `2 ^ -25` short of a half more, rounded. -/
private theorem add_belowHalf_roundsTo (finite_x : x.IsFinite) :
    RoundsTo (x.value + (1 / 2 - 1 / 2 ^ 25)) (x + belowHalf) := by
  rw [← value_belowHalf]
  exact add_roundsTo finite_x (isFinite_finite _ _)

private theorem isFinite_add_belowHalf (finite_x : x.IsFinite) : (x + belowHalf).IsFinite := by
  apply (add_belowHalf_roundsTo finite_x).isNearestEven.isFinite
  obtain ⟨lower, upper⟩ := abs_le.mp finite_x.abs_value_le
  rw [abs_lt]
  constructor <;> linarith

/-- Below a half the sum stays below one, because the largest number there is just less than a
half. -/
private theorem floor_of_lt_half (finite_x : x.IsFinite) (nonneg : 0 ≤ x.value)
    (less : x.value < 1 / 2) : ⌊(x + belowHalf).value⌋ = 0 := by
  have gap : x.value ≤ 1 / 2 - 1 / 2 ^ 25 := by
    by_contra! beyond
    obtain ⟨n, n_eq⟩ := exists_eq_div_of_le finite_x (show 25 ≤ 149 by norm_num) (by
      rw [abs_of_nonneg nonneg]
      linarith)
    rw [n_eq, lt_div_iff₀ (by positivity)] at beyond
    rw [n_eq, div_lt_iff₀ (by positivity)] at less
    have beyond : (2 ^ 24 - 1 : ℚ) < n := by linarith
    have less : (n : ℚ) < 2 ^ 24 := by linarith
    have beyond : (2 ^ 24 - 1 : ℤ) < n := by exact_mod_cast beyond
    have less : n < 2 ^ 24 := by exact_mod_cast less
    omega
  obtain ⟨top, finite_top, top_eq⟩ :=
    exists_value_eq_div (n := 2 ^ 24 - 1) (k := 24) (by norm_num) (by norm_num)
  push_cast at top_eq
  have bounds := (add_belowHalf_roundsTo finite_x).bounds zero_between.finite finite_top
    (by rw [value_zero]; linarith) (by rw [top_eq]; linarith)
  rw [value_zero, top_eq] at bounds
  rw [Int.floor_eq_iff]
  constructor <;> push_cast <;> linarith [bounds.2.1, bounds.2.2]

/-- The sum of a half lies midway between one and the number before it, and one is even. -/
private theorem floor_of_eq_half (finite_x : x.IsFinite) (same : x.value = 1 / 2) :
    ⌊(x + belowHalf).value⌋ = 1 := by
  have half : (finite false ⟨0x3f000000, by decide⟩).value = 1 / 2 := by
    have rank : magnitude 0x3f000000 = 2 ^ 148 := by decide
    simp only [value, units, Bool.false_eq_true, if_false, rank]
    norm_num
  have alike := alike_of_value_eq (isFinite_finite _ _) finite_x (half.trans same.symm)
  have sum : finite false ⟨0x3f000000, by decide⟩ + belowHalf = 1 := by decide
  rw [← alike.eq_of_ne_zero (by decide), sum, value_one, Int.floor_one]

private theorem value_le_add_belowHalf (finite_x : x.IsFinite) :
    x.value ≤ (x + belowHalf).value := by
  rw [← le_iff_value finite_x (isFinite_add_belowHalf finite_x)]
  exact (add_belowHalf_roundsTo finite_x).le_of_value_le finite_x (by norm_num)

/-- Where the number a half above is on the grid of the sum, it is the sum. -/
private theorem add_belowHalf_value {n k : Nat} (finite_x : x.IsFinite) (x_eq : x.value = n / 2 ^ k)
    (normal : 2 ^ 23 ≤ n) (range : 1 ≤ k ∧ k ≤ 23) (room : n + 2 ^ (k - 1) ≤ 2 ^ 24) :
    (x + belowHalf).value = x.value + 1 / 2 := by
  have finite_sum := isFinite_add_belowHalf finite_x
  have x_le := value_le_add_belowHalf finite_x
  have grid_pos : (0 : ℚ) < 2 ^ k := by positivity
  have half : (2 : ℚ) ^ k = 2 ^ (k - 1) * 2 := (pow_sub_one_mul (by omega) 2).symm
  obtain ⟨y, finite_y, y_grid⟩ := exists_value_eq_div (n := ((n + 2 ^ (k - 1) : Nat) : ℤ)) (k := k)
    (by rwa [Int.natAbs_natCast]) (by omega)
  have y_eq : y.value = x.value + 1 / 2 := by
    rw [y_grid, x_eq, half]
    push_cast
    field_simp
  have normal : (2 ^ 23 : ℚ) ≤ x.value * 2 ^ k := by
    rw [x_eq, div_mul_cancel₀ _ grid_pos.ne']
    exact_mod_cast normal
  obtain ⟨s, sum_grid⟩ := exists_eq_div_of_le finite_sum (show k ≤ 149 by omega)
    (normal.trans (mul_le_mul_of_nonneg_right (x_le.trans (le_abs_self _)) grid_pos.le))
  have near := (add_belowHalf_roundsTo finite_x).isNearestEven.abs_sub_le finite_sum finite_y
  have close : |(x + belowHalf).value - y.value| ≤ 1 / 2 ^ 24 := by
    have short : |y.value - (x.value + (1 / 2 - 1 / 2 ^ 25))| = 1 / 2 ^ 25 := by
      rw [y_eq, add_sub_add_left_eq_sub, sub_sub_cancel, abs_of_pos (by positivity)]
    obtain ⟨lower, upper⟩ := abs_le.mp (near.trans_eq short)
    rw [y_eq, abs_le]
    constructor <;> linarith
  rw [← y_eq]
  apply eq_of_grid sum_grid y_grid
  calc
    |(x + belowHalf).value - y.value| * 2 ^ k ≤ 1 / 2 ^ 24 * 2 ^ 23 :=
      mul_le_mul close (pow_le_pow_right₀ (by norm_num) range.2) grid_pos.le (by positivity)
    _ < 1 := by norm_num

/-- A significand of 24 digits that passes the next power of two with a half more does so by at
least its last digit. -/
private theorem power_between {v : ℚ} {n k : Nat} (v_eq : v = n / 2 ^ k) (significand : n < 2 ^ 24)
    (range : 1 ≤ k ∧ k ≤ 24) (passes : 2 ^ 24 < n + 2 ^ (k - 1)) :
    v < 2 ^ (24 - k) ∧ (2 : ℚ) ^ (24 - k) + 1 / 2 ^ 24 ≤ v + 1 / 2 := by
  have grid_pos : (0 : ℚ) < 2 ^ k := by positivity
  have half : (2 : ℚ) ^ k = 2 ^ (k - 1) * 2 := (pow_sub_one_mul (by omega) 2).symm
  have power : (2 : ℚ) ^ (24 - k) * 2 ^ k = 2 ^ 24 := by
    rw [← pow_add, Nat.sub_add_cancel range.2]
  constructor
  · rw [v_eq, div_lt_iff₀ grid_pos, power]
    exact_mod_cast significand
  · have passes : (2 ^ 24 + 1 : ℚ) ≤ n + 2 ^ (k - 1) := by exact_mod_cast passes
    have digit : (1 : ℚ) / 2 ^ 24 ≤ 1 / 2 ^ k :=
      one_div_le_one_div_of_le grid_pos (pow_le_pow_right₀ (by norm_num) range.2)
    have beyond : (2 : ℚ) ^ (24 - k) + 1 / 2 ^ k ≤ v + 1 / 2 := by
      apply le_of_mul_le_mul_right _ grid_pos
      rw [add_mul, add_mul, power, v_eq, div_mul_cancel₀ _ grid_pos.ne',
        div_mul_cancel₀ _ grid_pos.ne', half]
      linarith
    linarith

/-- Where a half more leads past a power of two into wider spacing, that power is the integer part
of the sum. -/
private theorem floor_of_passes {n k : Nat} (finite_x : x.IsFinite) (x_eq : x.value = n / 2 ^ k)
    (significand : n < 2 ^ 24) (range : 1 ≤ k ∧ k ≤ 24) (passes : 2 ^ 24 < n + 2 ^ (k - 1)) :
    ⌊(x + belowHalf).value⌋ = ⌊x.value + 1 / 2⌋ := by
  obtain ⟨below, above⟩ := power_between x_eq significand range passes
  have wide : 2 ≤ k := by
    by_contra narrow
    obtain rfl : k = 1 := by omega
    omega
  obtain ⟨bottom, finite_bottom, bottom_eq⟩ :=
    exists_value_eq_int (n := 2 ^ (24 - k)) (by
      rw [Int.natAbs_pow]
      exact Nat.pow_le_pow_right (by norm_num) (by omega))
  obtain ⟨top, finite_top, top_eq⟩ :=
    exists_value_eq_div (n := ((2 ^ (25 - k) + 1 : Nat) : ℤ)) (k := 1) (by
      rw [Int.natAbs_natCast]
      have size : 2 ^ (25 - k) ≤ 2 ^ 23 := Nat.pow_le_pow_right (by norm_num) (by omega)
      omega) (by norm_num)
  have top_eq : top.value = 2 ^ (24 - k) + 1 / 2 := by
    rw [top_eq, show 25 - k = 24 - k + 1 by omega, pow_succ]
    push_cast
    ring
  push_cast at bottom_eq
  have bounds := (add_belowHalf_roundsTo finite_x).bounds finite_bottom finite_top
    (by rw [bottom_eq]; linarith) (by rw [top_eq]; linarith)
  rw [bottom_eq, top_eq] at bounds
  trans 2 ^ (24 - k)
  · rw [Int.floor_eq_iff]
    push_cast
    exact ⟨bounds.2.1, by linarith [bounds.2.2]⟩
  · rw [eq_comm, Int.floor_eq_iff]
    push_cast
    exact ⟨by linarith, by linarith⟩

/-- Where the numbers are integers, the sum is rounded back. -/
private theorem floor_of_whole (finite_x : x.IsFinite) (large : 2 ^ 23 ≤ x.value) :
    ⌊(x + belowHalf).value⌋ = ⌊x.value + 1 / 2⌋ := by
  have finite_sum := isFinite_add_belowHalf finite_x
  have x_le := value_le_add_belowHalf finite_x
  obtain ⟨n, n_eq⟩ := exists_eq_int_of_le finite_x large
  obtain ⟨s, s_eq⟩ := exists_eq_int_of_le finite_sum (large.trans x_le)
  have near := (add_belowHalf_roundsTo finite_x).isNearestEven.abs_sub_le finite_sum finite_x
  have apart : (s : ℚ) < n + 1 := by
    have short : |x.value - (x.value + (1 / 2 - 1 / 2 ^ 25))| = 1 / 2 - 1 / 2 ^ 25 := by
      rw [sub_add_cancel_left, abs_neg, abs_of_pos (by norm_num)]
    have upper := (abs_le.mp (near.trans_eq short)).2
    rw [← s_eq, ← n_eq]
    linarith
  have apart : s < n + 1 := by exact_mod_cast apart
  have order : n ≤ s := by
    rw [n_eq, s_eq] at x_le
    exact_mod_cast x_le
  obtain rfl : s = n := by omega
  rw [s_eq, n_eq, Int.floor_intCast, Int.floor_intCast_add]
  norm_num

/-- Although the sum with just less than a half is rounded, its integer part is that of the exact
sum with a half. -/
private theorem floor_add_belowHalf (finite_x : x.IsFinite) (nonneg : 0 ≤ x.value) :
    ⌊(x + belowHalf).value⌋ = ⌊x.value + 1 / 2⌋ := by
  rcases lt_trichotomy x.value (1 / 2) with less | same | more
  · rw [floor_of_lt_half finite_x nonneg less, eq_comm, Int.floor_eq_zero_iff]
    constructor <;> linarith
  · rw [floor_of_eq_half finite_x same, same]
    norm_num
  rcases lt_or_ge x.value (2 ^ 23) with fractional | large
  · obtain ⟨n, k, significand, range, x_eq⟩ := exists_significand finite_x more.le fractional
    rcases Nat.lt_or_ge (2 ^ 24) (n + 2 ^ (k - 1)) with passes | room
    · exact floor_of_passes finite_x x_eq significand.2 range passes
    · have fine : k ≤ 23 := by
        by_contra finest
        obtain rfl : k = 24 := by omega
        rw [x_eq, lt_div_iff₀ (by positivity)] at more
        have more : (2 ^ 23 : ℚ) < n := by linarith
        have more : 2 ^ 23 < n := by exact_mod_cast more
        omega
      rw [add_belowHalf_value finite_x x_eq significand.1 ⟨range.1, fine⟩ room]
  · exact floor_of_whole finite_x large

/-! ## Rounding -/

private theorem ofUnits_neg (s t : Bool) {units : ℤ} (positive : 0 < units) :
    ofUnits s (-units) = -ofUnits t units := by
  have negative : -units < 0 := neg_neg_of_pos positive
  rw [ofUnits, ofUnits, if_neg negative.ne, if_neg positive.ne', decide_eq_true negative,
    decide_eq_false positive.not_gt, Int.natAbs_neg, ofRatio_true]

private theorem truncate_neg (x : Binary32) : (-x).truncate = -x.truncate := by
  change x.neg.truncate = -x.truncate
  rcases x with _ | negative | ⟨negative, rank⟩
  · rfl
  · rfl
  · simp only [Binary32.neg, truncate, neg_ofRatio]

/-- Rounding to an integer treats both signs alike. -/
private theorem roundAway_true (rank : Fin 0x7f800000) :
    (finite true rank).roundAway = -(finite false rank).roundAway := by
  have positive : (0 : ℤ) < magnitude rank + magnitude 0x3effffff := by
    have half : 0 < magnitude 0x3effffff := by decide
    omega
  have sum : finite true rank + belowHalf.neg = -(finite false rank + belowHalf) := by
    change ofUnits true (-(magnitude rank : ℤ) + -(magnitude 0x3effffff : ℤ)) =
      -ofUnits false (magnitude rank + magnitude 0x3effffff)
    rw [← neg_add, ofUnits_neg true false positive]
  change (finite true rank + belowHalf.neg).truncate = -(finite false rank + belowHalf).truncate
  rw [sum, truncate_neg]

/-- A finite number is rounded to the nearest integer, a half away from zero, at every magnitude. -/
theorem roundAway_isNearestAway (finite_x : x.IsFinite) :
    x.roundAway.IsFinite ∧ ∃ n : ℤ, x.roundAway.value = n ∧ IsNearestAway x.value n := by
  obtain ⟨negative, rank, rfl⟩ := finite_x.exists_eq
  have unsigned : (finite false rank).roundAway.IsFinite ∧
      ∃ n : ℤ, (finite false rank).roundAway.value = n ∧
        IsNearestAway (finite false rank).value n := by
    have nonneg : 0 ≤ (finite false rank).value := by
      simp only [value, units, Bool.false_eq_true, if_false]
      positivity
    have finite_sum := isFinite_add_belowHalf (isFinite_finite false rank)
    have sum_nonneg := nonneg.trans (value_le_add_belowHalf (isFinite_finite false rank))
    obtain ⟨finite_part, part⟩ := truncate_value finite_sum sum_nonneg
    rw [floor_add_belowHalf (isFinite_finite false rank) nonneg] at part
    exact ⟨finite_part, _, part, .of_nonneg nonneg⟩
  cases negative with
  | false => exact unsigned
  | true =>
    obtain ⟨finite_part, n, part, rounds⟩ := unsigned
    have value_true : (finite true rank).value = -(finite false rank).value :=
      value_neg (finite false rank)
    rw [roundAway_true, isFinite_neg, value_neg, value_true, part]
    exact ⟨finite_part, -n, by push_cast; rfl, rounds.neg⟩

theorem roundAway_infinity (negative : Bool) :
    (infinity negative).roundAway = infinity negative := by
  cases negative <;> rfl

/-! ## Natural numbers up to a limit -/

theorem toNatAtMost_le_limit (x : Binary32) (limit : Nat) : x.toNatAtMost limit ≤ limit := by
  cases x with
  | nan => exact Nat.zero_le _
  | infinity negative => cases negative <;> simp [toNatAtMost]
  | finite negative rank => cases negative <;> simp [toNatAtMost]

/-- A number is cut off to a natural number and limited from both sides. -/
theorem toNatAtMost_eq (finite_x : x.IsFinite) (limit : Nat) :
    (x.toNatAtMost limit : ℤ) = max 0 (min ⌊x.value⌋ limit) := by
  obtain ⟨negative, rank, rfl⟩ := finite_x.exists_eq
  have part := floor_magnitude rank
  cases negative with
  | false =>
    simp only [toNatAtMost, value, units, Bool.false_eq_true, if_false, Int.cast_natCast, part,
      Nat.shiftRight_eq_div_pow]
    omega
  | true =>
    have nonpos : ⌊(finite true rank).value⌋ ≤ 0 := by
      apply Int.floor_nonpos
      simp only [value, units, if_true, Int.cast_neg, Int.cast_natCast, neg_div]
      exact neg_nonpos.mpr (by positivity)
    simp only [toNatAtMost, if_true]
    omega

/-- The nearest integer of a finite number, limited from both sides. -/
theorem toNatAtMost_roundAway (finite_x : x.IsFinite) (limit : Nat) :
    ∃ n : ℤ, IsNearestAway x.value n ∧
      (x.roundAway.toNatAtMost limit : ℤ) = max 0 (min n limit) := by
  obtain ⟨finite_part, n, part, rounds⟩ := roundAway_isNearestAway finite_x
  refine ⟨n, rounds, ?_⟩
  rw [toNatAtMost_eq finite_part, part, Int.floor_intCast]

/-- Within the limit the nearest integer is no more than a half away. -/
theorem toNatAtMost_roundAway_close {limit : Nat} (range : x.Between 0 limit) :
    |(x.roundAway.toNatAtMost limit : ℚ) - x.value| ≤ 1 / 2 := by
  obtain ⟨n, rounds, count⟩ := toNatAtMost_roundAway range.finite limit
  have close := rounds.close
  obtain ⟨lower, upper⟩ := abs_le.mp close
  have n_nonneg : (-1 : ℚ) < n := by linarith [range.value_nonneg]
  have n_le : (n : ℚ) < limit + 1 := by
    have bound : x.value ≤ limit := by exact_mod_cast range.upper
    linarith
  have n_nonneg : -1 < n := by exact_mod_cast n_nonneg
  have n_le : n < limit + 1 := by exact_mod_cast n_le
  have same : (x.roundAway.toNatAtMost limit : ℤ) = n := by omega
  rw [← Int.cast_natCast, same]
  exact close

/-- Larger numbers do not become smaller counts. -/
theorem toNatAtMost_roundAway_mono (le : x ≤ y) (limit : Nat) :
    x.roundAway.toNatAtMost limit ≤ y.roundAway.toNatAtMost limit := by
  rcases infinity_or_isFinite_of_le le with ⟨rfl, -⟩ | ⟨-, rfl⟩ | ⟨finite_x, finite_y⟩
  · rw [roundAway_infinity]
    exact Nat.zero_le _
  · rw [roundAway_infinity]
    exact toNatAtMost_le_limit _ _
  · obtain ⟨n, rounds_x, count_x⟩ := toNatAtMost_roundAway finite_x limit
    obtain ⟨m, rounds_y, count_y⟩ := toNatAtMost_roundAway finite_y limit
    have ordered := rounds_x.mono rounds_y ((le_iff_value finite_x finite_y).mp le)
    omega

end Multirotor.Binary32
