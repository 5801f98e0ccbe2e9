import Multirotor.Proofs.Binary32.Between

/-!
# Error bounds on binary32 numbers

`x.Near exact error` says that `x` is finite and no further than `error` from a rational number.
Every operation adds half the spacing of the numbers around its result to the errors of its
operands.
-/

namespace Multirotor.Binary32

/-- A finite number whose value approximates a rational number. -/
structure Near (x : Binary32) (exact error : ℚ) : Prop where
  /-- The number is finite. -/
  finite : x.IsFinite
  /-- The value is off by no more than the error. -/
  close : |x.value - exact| ≤ error

variable {x y : Binary32} {u v d e : ℚ} {a b n : ℤ} {k : Nat}

namespace Near

theorem lower (hx : x.Near u d) : u - d ≤ x.value := by linarith [(abs_le.mp hx.close).1]

theorem upper (hx : x.Near u d) : x.value ≤ u + d := by linarith [(abs_le.mp hx.close).2]

theorem mono (hx : x.Near u d) (le : d ≤ e) : x.Near u e := ⟨hx.finite, hx.close.trans le⟩

/-- What approximates a value approximates those close to it. -/
theorem of_close (hx : x.Near u d) (close : |u - v| ≤ e) : x.Near v (d + e) :=
  ⟨hx.finite, (abs_sub_le _ _ _).trans (add_le_add hx.close close)⟩

/-- A finite number approximates its own value. -/
theorem of_finite (finite_x : x.IsFinite) : x.Near x.value 0 where
  finite := finite_x
  close := by rw [sub_self, abs_zero]

/-- A number bounded by one integer from both sides is that integer. -/
theorem of_between (hx : x.Between n n) : x.Near n 0 := by
  rw [← hx.value_eq]
  exact of_finite hx.finite

theorem abs (hx : x.Near u d) : x.abs.Near |u| d where
  finite := isFinite_abs.mpr hx.finite
  close := by
    rw [value_abs]
    exact (abs_abs_sub_abs_le_abs_sub _ _).trans hx.close

/-- The rounding of a value that approximates another. -/
theorem of_roundsTo (rounded : RoundsTo v x) (fine : k ≤ 149) (close : |v - u| ≤ d)
    (small : |v| * 2 ^ k ≤ 2 ^ 24) : x.Near u (d + 1 / 2 ^ (k + 1)) := by
  obtain ⟨finite_x, near⟩ := rounded.near fine small
  refine ⟨finite_x, ?_⟩
  calc
    |x.value - u| ≤ |x.value - v| + |v - u| := abs_sub_le _ _ _
    _ ≤ 1 / 2 ^ (k + 1) + d := add_le_add near close
    _ = d + 1 / 2 ^ (k + 1) := add_comm _ _

private theorem size_le (close : |v - u| ≤ d) (small : (|u| + d) * 2 ^ k ≤ 2 ^ 24) :
    |v| * 2 ^ k ≤ 2 ^ 24 := by
  have size : |v| ≤ |u| + d := by linarith [abs_sub_abs_le_abs_sub v u]
  exact (mul_le_mul_of_nonneg_right size (by positivity)).trans small

private theorem add_close (hx : x.Near u d) (hy : y.Near v e) :
    |x.value + y.value - (u + v)| ≤ d + e := by
  rw [add_sub_add_comm]
  exact (abs_add_le _ _).trans (add_le_add hx.close hy.close)

private theorem sub_close (hx : x.Near u d) (hy : y.Near v e) :
    |x.value - y.value - (u - v)| ≤ d + e := by
  rw [sub_sub_sub_comm]
  exact (abs_sub _ _).trans (add_le_add hx.close hy.close)

theorem add (hx : x.Near u d) (hy : y.Near v e) (fine : k ≤ 149)
    (small : (|u + v| + (d + e)) * 2 ^ k ≤ 2 ^ 24) :
    (x + y).Near (u + v) (d + e + 1 / 2 ^ (k + 1)) :=
  of_roundsTo (add_roundsTo hx.finite hy.finite) fine (hx.add_close hy)
    (size_le (hx.add_close hy) small)

theorem sub (hx : x.Near u d) (hy : y.Near v e) (fine : k ≤ 149)
    (small : (|u - v| + (d + e)) * 2 ^ k ≤ 2 ^ 24) :
    (x - y).Near (u - v) (d + e + 1 / 2 ^ (k + 1)) :=
  of_roundsTo (sub_roundsTo hx.finite hy.finite) fine (hx.sub_close hy)
    (size_le (hx.sub_close hy) small)

/-- The product with an integer that is known exactly. -/
theorem mul_of_between (hx : x.Between n n) (hy : y.Near v e) (fine : k ≤ 149)
    (small : (|n * v| + |(n : ℚ)| * e) * 2 ^ k ≤ 2 ^ 24) :
    (x * y).Near (n * v) (|(n : ℚ)| * e + 1 / 2 ^ (k + 1)) := by
  have close : |x.value * y.value - n * v| ≤ |(n : ℚ)| * e := by
    rw [hx.value_eq, ← mul_sub, abs_mul]
    exact mul_le_mul_of_nonneg_left hy.close (abs_nonneg _)
  exact of_roundsTo (mul_roundsTo hx.finite hy.finite) fine close (size_le close small)

end Near

/-! ## Operands between integers -/

theorem Between.abs_value_le (hx : x.Between (-a) a) : |x.value| ≤ a :=
  abs_le.mpr ⟨by exact_mod_cast hx.lower, hx.upper⟩

private theorem size_le_of_int {n : ℤ} (size : |v| ≤ n) (small : n * 2 ^ k ≤ 2 ^ 24) :
    |v| * 2 ^ k ≤ 2 ^ 24 := by
  have small : (n : ℚ) * 2 ^ k ≤ 2 ^ 24 := by exact_mod_cast small
  exact (mul_le_mul_of_nonneg_right size (by positivity)).trans small

namespace Near

theorem add_between (hx : x.Near u d) (hy : y.Near v e) (x_between : x.Between (-a) a)
    (y_between : y.Between (-b) b) (fine : k ≤ 149) (small : (a + b) * 2 ^ k ≤ 2 ^ 24) :
    (x + y).Near (u + v) (d + e + 1 / 2 ^ (k + 1)) := by
  have size : |x.value + y.value| ≤ (a + b : ℤ) := by
    push_cast
    exact (abs_add_le _ _).trans (add_le_add x_between.abs_value_le y_between.abs_value_le)
  exact of_roundsTo (add_roundsTo hx.finite hy.finite) fine (hx.add_close hy)
    (size_le_of_int size small)

theorem sub_between (hx : x.Near u d) (hy : y.Near v e) (x_between : x.Between (-a) a)
    (y_between : y.Between (-b) b) (fine : k ≤ 149) (small : (a + b) * 2 ^ k ≤ 2 ^ 24) :
    (x - y).Near (u - v) (d + e + 1 / 2 ^ (k + 1)) := by
  have size : |x.value - y.value| ≤ (a + b : ℤ) := by
    push_cast
    exact (abs_sub _ _).trans (add_le_add x_between.abs_value_le y_between.abs_value_le)
  exact of_roundsTo (sub_roundsTo hx.finite hy.finite) fine (hx.sub_close hy)
    (size_le_of_int size small)

theorem mul_between (hx : x.Near u d) (hy : y.Near v e) (x_between : x.Between (-a) a)
    (y_between : y.Between (-b) b) (size_v : |v| ≤ b) (fine : k ≤ 149)
    (small : a * b * 2 ^ k ≤ 2 ^ 24) :
    (x * y).Near (u * v) (a * e + d * b + 1 / 2 ^ (k + 1)) := by
  have size_x := x_between.abs_value_le
  have size_y := y_between.abs_value_le
  have size : |x.value * y.value| ≤ (a * b : ℤ) := by
    push_cast
    rw [abs_mul]
    exact mul_le_mul size_x size_y (abs_nonneg _) ((abs_nonneg _).trans size_x)
  have close : |x.value * y.value - u * v| ≤ a * e + d * b := by
    calc
      |x.value * y.value - u * v| = |x.value * (y.value - v) + (x.value - u) * v| := by
        congr 1
        ring
      _ ≤ |x.value| * |y.value - v| + |x.value - u| * |v| := by
        rw [← abs_mul, ← abs_mul]
        exact abs_add_le _ _
      _ ≤ a * e + d * b :=
        add_le_add
          (mul_le_mul size_x hy.close (abs_nonneg _) ((abs_nonneg _).trans size_x))
          (mul_le_mul hx.close size_v (abs_nonneg _) ((abs_nonneg _).trans hx.close))
  exact of_roundsTo (mul_roundsTo hx.finite hy.finite) fine close (size_le_of_int size small)

end Near

/-- A percentage is exact up to half the spacing of the numbers below one. -/
theorem percentage_near {n : Nat} (le : n ≤ 100) :
    (ofNat n / 100).Near ((n : ℚ) / 100) (1 / 2 ^ 25) := by
  have hundred_value : (100 : Binary32).value = 100 := value_ofNat (n := 100) (by norm_num)
  have numerator : (ofNat n).value = n := value_ofNat (by omega)
  have quotient := div_roundsTo (ofNat_between (n := n) (by omega)).finite hundred_between.finite
    (by rw [hundred_value]; norm_num)
  rw [numerator, hundred_value] at quotient
  have le_rat : (n : ℚ) ≤ 100 := by exact_mod_cast le
  have nonneg : (0 : ℚ) ≤ (n : ℚ) / 100 := div_nonneg (Nat.cast_nonneg n) (by norm_num)
  have rounded := Near.of_roundsTo (u := (n : ℚ) / 100) (d := 0) (k := 24) quotient (by norm_num)
    (by rw [sub_self, abs_zero])
    (by rw [abs_of_nonneg nonneg]; linarith)
  rwa [zero_add] at rounded

end Multirotor.Binary32
