import Mathlib.Algebra.Order.Field.Basic
import Mathlib.Algebra.Order.Field.Rat
import Mathlib.Algebra.Order.Floor.Ring
import Mathlib.Data.Rat.Floor
import Mathlib.Tactic.FieldSimp
import Mathlib.Tactic.Linarith
import Mathlib.Tactic.NormNum
import Mathlib.Tactic.Positivity
import Mathlib.Tactic.Ring
import Multirotor.Binary32.Arithmetic

/-!
# Rounding of binary32 numbers

The exact value of a finite number is a rational number, and among finite numbers the order is that
of the values.  An arithmetic operation is its exact result, rounded, and rounding never carries an
exact value past a number: `RoundsTo.bounds` is the one fact about rounding from which bounds on
results are derived.
-/

namespace Multirotor.Binary32

/-! ## Magnitudes -/

/-- The shifts of the definition are powers of two. -/
theorem magnitude_eq (rank : Nat) :
    magnitude rank =
      if rank / 2 ^ 23 = 0 then rank % 2 ^ 23
      else (2 ^ 23 + rank % 2 ^ 23) * 2 ^ (rank / 2 ^ 23 - 1) := by
  rw [magnitude, Nat.shiftLeft_eq]
  rfl

theorem nearestRank_eq (num den : Nat) :
    nearestRank num den =
      nearestEven num (den * 2 ^ ((num / den).log2 - 23)) + ((num / den).log2 - 23) * 2 ^ 23 := by
  rw [nearestRank, Nat.shiftLeft_eq]
  rfl

/-- Each rank has a larger magnitude than the ranks before it. -/
theorem magnitude_strictMono : StrictMono magnitude := by
  refine strictMono_nat_of_lt_succ fun rank => ?_
  rcases Nat.lt_or_ge (rank % 2 ^ 23 + 1) (2 ^ 23) with inside | last
  · have binade : (rank + 1) / 2 ^ 23 = rank / 2 ^ 23 := by omega
    have step : (rank + 1) % 2 ^ 23 = rank % 2 ^ 23 + 1 := by omega
    simp only [magnitude_eq, binade, step]
    split
    · omega
    · exact Nat.mul_lt_mul_of_pos_right (by omega) (Nat.two_pow_pos _)
  · -- the last step of a binade is followed by the first step of the next
    have full : rank % 2 ^ 23 = 2 ^ 23 - 1 := by omega
    have binade : (rank + 1) / 2 ^ 23 = rank / 2 ^ 23 + 1 := by omega
    have step : (rank + 1) % 2 ^ 23 = 0 := by omega
    simp only [magnitude_eq, binade, step, full]
    rcases Nat.eq_zero_or_pos (rank / 2 ^ 23) with zero | positive
    · simp only [zero]
      norm_num
    · have power : 2 ^ (rank / 2 ^ 23) = 2 * 2 ^ (rank / 2 ^ 23 - 1) := by
        rw [← Nat.pow_succ']
        congr 1
        omega
      have room := Nat.two_pow_pos (rank / 2 ^ 23 - 1)
      simp only [Nat.pos_iff_ne_zero.mp positive, if_false, Nat.add_sub_cancel,
        Nat.add_eq_zero_iff, Nat.one_ne_zero, and_false, Nat.add_zero]
      rw [power]
      omega

/-- A significand moved up by `shift` binades. -/
theorem magnitude_shift {n shift : Nat} (small : n ≤ 2 ^ 24) (normal : 2 ^ 23 ≤ n ∨ shift = 0) :
    magnitude (n + shift * 2 ^ 23) = n * 2 ^ shift := by
  rcases Nat.lt_or_ge n (2 ^ 23) with below | above
  · obtain rfl : shift = 0 := by omega
    simp only [magnitude_eq, Nat.zero_mul, Nat.add_zero, Nat.pow_zero, Nat.mul_one,
      Nat.div_eq_of_lt below, Nat.mod_eq_of_lt below, if_true]
  · rcases Nat.eq_or_lt_of_le small with rfl | inside
    · have binade : (2 ^ 24 + shift * 2 ^ 23) / 2 ^ 23 = shift + 2 := by omega
      have step : (2 ^ 24 + shift * 2 ^ 23) % 2 ^ 23 = 0 := by omega
      simp only [magnitude_eq, binade, step]
      rw [if_neg (by omega), show shift + 2 - 1 = shift + 1 by omega, Nat.pow_succ]
      omega
    · have binade : (n + shift * 2 ^ 23) / 2 ^ 23 = shift + 1 := by omega
      have step : (n + shift * 2 ^ 23) % 2 ^ 23 = n - 2 ^ 23 := by omega
      simp only [magnitude_eq, binade, step]
      rw [if_neg (by omega), Nat.add_sub_cancel, Nat.add_sub_cancel' above]

/-! ## Rounding to a rank -/

/-- Rounding to an integer does not go below an integer that is not above the quotient. -/
theorem le_nearestEven {k num den : Nat} (positive : 0 < den) (below : k * den ≤ num) :
    k ≤ nearestEven num den := by
  have floor : k ≤ num / den := (Nat.le_div_iff_mul_le positive).mpr below
  simp only [nearestEven]
  split
  · exact floor
  · split <;> omega

/-- Rounding to an integer does not go above an integer that is not below the quotient. -/
theorem nearestEven_le {k num den : Nat} (positive : 0 < den) (above : num ≤ k * den) :
    nearestEven num den ≤ k := by
  have split_num := Nat.div_add_mod num den
  have rest := Nat.mod_lt num positive
  rcases Nat.lt_or_ge (num / den) k with room | tight
  · simp only [nearestEven]
    split
    · omega
    · split <;> omega
  · have exact : num % den = 0 := by
      have := Nat.mul_le_mul_left den tight
      rw [Nat.mul_comm k den] at above
      omega
    have floor : num / den = k := by
      apply Nat.le_antisymm _ tight
      exact Nat.div_le_of_le_mul (by rwa [Nat.mul_comm] at above)
    simp only [nearestEven, exact, floor]
    rw [if_pos (by omega)]

/-- Rounding to an integer moves a quotient by no more than a half. -/
theorem nearestEven_near (num : Nat) {den : Nat} (positive : 0 < den) :
    2 * num ≤ 2 * (nearestEven num den * den) + den ∧
      2 * (nearestEven num den * den) ≤ 2 * num + den := by
  have split_num := Nat.div_add_mod num den
  rw [Nat.mul_comm] at split_num
  have rest := Nat.mod_lt num positive
  have next : (num / den + 1) * den = num / den * den + den := Nat.succ_mul _ _
  simp only [nearestEven]
  split
  · omega
  · split
    · omega
    · rcases Nat.mod_two_eq_zero_or_one (num / den) with even | odd
      · rw [even, Nat.add_zero]
        omega
      · rw [odd]
        omega

/-- The spacing chosen by `nearestRank` fits the quotient: it has at most 24 binary digits above the
spacing, and exactly 24 unless the spacing is one unit. -/
theorem nearestRank_spacing (num : Nat) {den : Nat} (positive : 0 < den) :
    let shift := (num / den).log2 - 23
    num < 2 ^ 24 * (den * 2 ^ shift) ∧ (shift = 0 ∨ 2 ^ 23 * (den * 2 ^ shift) ≤ num) := by
  intro shift
  have scaled (k : Nat) : 2 ^ k * (den * 2 ^ shift) = 2 ^ (k + shift) * den := by
    rw [Nat.pow_add]
    ring
  rw [scaled, scaled, ← Nat.div_lt_iff_lt_mul positive, ← Nat.le_div_iff_mul_le positive]
  constructor
  · calc
      num / den < 2 ^ ((num / den).log2 + 1) := Nat.lt_log2_self
      _ ≤ 2 ^ (24 + shift) := Nat.pow_le_pow_right (by omega) (by omega)
  · rcases Nat.eq_zero_or_pos shift with zero | large
    · exact .inl zero
    · have nonzero : num / den ≠ 0 := by
        intro zero
        simp [shift, zero] at large
      right
      calc
        2 ^ (23 + shift) ≤ 2 ^ (num / den).log2 := Nat.pow_le_pow_right (by omega) (by omega)
        _ ≤ num / den := Nat.log2_self_le nonzero

/-- Rounding does not go below a magnitude that is not above the quotient. -/
theorem le_nearestRank {rank num den : Nat} (positive : 0 < den)
    (below : magnitude rank * den ≤ num) : rank ≤ nearestRank num den := by
  obtain ⟨upper, lower⟩ := nearestRank_spacing num positive
  rw [nearestRank_eq]
  set shift := (num / den).log2 - 23 with shift_eq
  have spacing : 0 < den * 2 ^ shift := Nat.mul_pos positive (Nat.two_pow_pos _)
  obtain inside | ⟨n, rfl⟩ : rank ≤ shift * 2 ^ 23 ∨ ∃ n, rank = n + shift * 2 ^ 23 := by
    rcases Nat.le_total rank (shift * 2 ^ 23) with h | h
    · exact .inl h
    · exact .inr ⟨rank - shift * 2 ^ 23, by omega⟩
  · omega
  apply Nat.add_le_add_right
  rcases Nat.lt_or_ge n (2 ^ 23) with subnormal | normal
  · rcases lower with zero | lower
    · apply le_nearestEven spacing
      rw [magnitude_shift (by omega) (.inr zero)] at below
      linarith [below]
    · exact subnormal.le.trans (le_nearestEven spacing lower)
  · have significand : n < 2 ^ 24 := by
      have bound : magnitude (n + shift * 2 ^ 23) < magnitude (2 ^ 24 + shift * 2 ^ 23) := by
        rw [magnitude_shift le_rfl (.inl (by omega))]
        apply Nat.lt_of_mul_lt_mul_right (a := den)
        linarith [below, upper]
      have := magnitude_strictMono.lt_iff_lt.mp bound
      omega
    apply le_nearestEven spacing
    rw [magnitude_shift significand.le (.inl normal)] at below
    linarith [below]

/-- Rounding does not go above a magnitude that is not below the quotient. -/
theorem nearestRank_le {rank num den : Nat} (positive : 0 < den)
    (above : num ≤ magnitude rank * den) : nearestRank num den ≤ rank := by
  obtain ⟨upper, lower⟩ := nearestRank_spacing num positive
  rw [nearestRank_eq]
  set shift := (num / den).log2 - 23 with shift_eq
  have spacing : 0 < den * 2 ^ shift := Nat.mul_pos positive (Nat.two_pow_pos _)
  rcases Nat.lt_or_ge rank (2 ^ 24 + shift * 2 ^ 23) with inside | beyond
  · have normal : shift = 0 ∨ 2 ^ 23 + shift * 2 ^ 23 ≤ rank := by
      refine lower.imp_right fun lower => ?_
      rw [← magnitude_strictMono.le_iff_le, magnitude_shift (by omega) (.inl le_rfl)]
      apply Nat.le_of_mul_le_mul_right (c := den) _ positive
      linarith [above, lower]
    obtain ⟨n, rfl⟩ : ∃ n, rank = n + shift * 2 ^ 23 := ⟨rank - shift * 2 ^ 23, by omega⟩
    apply Nat.add_le_add_right
    apply nearestEven_le spacing
    rw [magnitude_shift (by omega) (by omega)] at above
    linarith [above]
  · have := nearestEven_le spacing upper.le
    omega

/-- Rounding to a rank moves a quotient by no more than half of the spacing around it. -/
private theorem magnitude_nearestRank (num : Nat) {den : Nat} (positive : 0 < den) :
    let shift := (num / den).log2 - 23
    let rounded := magnitude (nearestRank num den) * den
    2 * num ≤ 2 * rounded + den * 2 ^ shift ∧ 2 * rounded ≤ 2 * num + den * 2 ^ shift := by
  intro shift rounded
  obtain ⟨upper, lower⟩ := nearestRank_spacing num positive
  have spacing : 0 < den * 2 ^ shift := Nat.mul_pos positive (Nat.two_pow_pos _)
  have rounded_eq : rounded = nearestEven num (den * 2 ^ shift) * (den * 2 ^ shift) := by
    simp only [rounded]
    rw [nearestRank_eq, magnitude_shift (nearestEven_le spacing upper.le)
      (lower.symm.imp_left (le_nearestEven spacing))]
    ring
  rw [rounded_eq]
  exact nearestEven_near num spacing

/-! ## Exact values -/

/-- The number is neither NaN nor an infinity. -/
def IsFinite : Binary32 → Prop
  | finite _ _ => True
  | _ => False

instance (x : Binary32) : Decidable x.IsFinite := by
  unfold IsFinite
  split <;> infer_instance

/-- The exact value of a finite number; NaN and the infinities count as 0. -/
def value : Binary32 → ℚ
  | finite negative rank => units negative rank / 2 ^ 149
  | _ => 0

@[simp]
theorem isFinite_finite (negative : Bool) (rank : Fin 0x7f800000) :
    (finite negative rank).IsFinite := trivial

theorem IsFinite.exists_eq {x : Binary32} (finite_x : x.IsFinite) :
    ∃ negative rank, x = finite negative rank := by
  cases x with
  | nan => exact finite_x.elim
  | infinity => exact finite_x.elim
  | finite negative rank => exact ⟨negative, rank, rfl⟩

theorem IsFinite.ne_nan {x : Binary32} (finite_x : x.IsFinite) : x ≠ nan := by
  rintro rfl
  exact finite_x

theorem magnitude_zero : magnitude 0 = 0 := rfl

/-- Signed ranks are ordered as the exact values that they stand for. -/
private theorem units_le_iff (s t : Bool) (a b : Nat) :
    units s a ≤ units t b ↔ (if s then -(a : Int) else a) ≤ (if t then -(b : Int) else b) := by
  have order := magnitude_strictMono.le_iff_le (a := a) (b := b)
  have converse := magnitude_strictMono.le_iff_le (a := b) (b := a)
  have zero_left := magnitude_strictMono.le_iff_le (a := a) (b := 0)
  have zero_right := magnitude_strictMono.le_iff_le (a := b) (b := 0)
  rw [magnitude_zero] at zero_left zero_right
  cases s <;> cases t <;> simp only [units, if_true, if_false, Bool.false_eq_true] <;> omega

/-- Among finite numbers the weak order is that of the values. -/
theorem le_iff_value {x y : Binary32} (finite_x : x.IsFinite) (finite_y : y.IsFinite) :
    x ≤ y ↔ x.value ≤ y.value := by
  obtain ⟨s, a, rfl⟩ := finite_x.exists_eq
  obtain ⟨t, b, rfl⟩ := finite_y.exists_eq
  have unit : (0 : ℚ) < 2 ^ 149 := by positivity
  rw [le_iff, value, value, div_le_div_iff_of_pos_right unit, Int.cast_le, units_le_iff]
  cases s <;> cases t <;> simp [place?]

/-- Among finite numbers the strict order is that of the values. -/
theorem lt_iff_value {x y : Binary32} (finite_x : x.IsFinite) (finite_y : y.IsFinite) :
    x < y ↔ x.value < y.value := by
  rw [← not_le, ← le_iff_value finite_y finite_x, lt_iff, le_iff]
  obtain ⟨s, a, rfl⟩ := finite_x.exists_eq
  obtain ⟨t, b, rfl⟩ := finite_y.exists_eq
  cases s <;> cases t <;> simp [place?]

/-- A number between two finite numbers is finite. -/
theorem isFinite_of_le_of_le {x lo hi : Binary32} (finite_lo : lo.IsFinite)
    (finite_hi : hi.IsFinite) (lower : lo ≤ x) (upper : x ≤ hi) : x.IsFinite := by
  obtain ⟨s, a, rfl⟩ := finite_lo.exists_eq
  obtain ⟨t, b, rfl⟩ := finite_hi.exists_eq
  rw [le_iff] at lower upper
  have bound_a := a.isLt
  have bound_b := b.isLt
  cases x with
  | nan => simp [place?] at lower
  | infinity negative =>
    cases negative <;> cases s <;> cases t <;> simp [place?] at lower upper <;> omega
  | finite negative rank => trivial

theorem value_neg (x : Binary32) : (-x).value = -x.value := by
  change x.neg.value = -x.value
  rcases x with _ | _ | ⟨_ | _, rank⟩ <;> simp [neg, value, units, neg_div]

theorem isFinite_neg {x : Binary32} : (-x).IsFinite ↔ x.IsFinite := by
  change x.neg.IsFinite ↔ x.IsFinite
  cases x <;> rfl

theorem value_abs (x : Binary32) : x.abs.value = |x.value| := by
  rcases x with _ | _ | ⟨_ | _, rank⟩ <;> simp [abs, value, units, abs_div, neg_div]

theorem isFinite_abs {x : Binary32} : x.abs.IsFinite ↔ x.IsFinite := by cases x <;> rfl

/-- Finite numbers stay below `2 ^ 128`. -/
theorem IsFinite.abs_value_lt {x : Binary32} (finite_x : x.IsFinite) : |x.value| < 2 ^ 128 := by
  obtain ⟨s, a, rfl⟩ := finite_x.exists_eq
  have top : magnitude 0x7f800000 = 2 ^ 23 * 2 ^ 254 := by
    rw [show 0x7f800000 = 2 ^ 23 + 254 * 2 ^ 23 by norm_num,
      magnitude_shift (by norm_num) (.inl le_rfl)]
  have below := magnitude_strictMono a.isLt
  rw [top, ← Nat.cast_lt (α := ℚ), Nat.cast_mul, Nat.cast_pow, Nat.cast_pow, Nat.cast_ofNat,
    ← pow_add] at below
  rw [← value_abs]
  simp only [Binary32.abs, value, units, Bool.false_eq_true, if_false, Int.cast_natCast]
  rw [div_lt_iff₀ (by positivity), ← pow_add]
  exact below

/-! ## Rounding -/

/-- `x` is the rounded result of an operation with the exact value `exact`. -/
def RoundsTo (exact : ℚ) (x : Binary32) : Prop :=
  ∃ negative num den, 0 < den ∧ x = ofRatio negative num den ∧
    exact = (if negative then -1 else 1) * (num / den / 2 ^ 149)

/-- The sign only mirrors the result of rounding. -/
theorem ofRatio_true (num den : Nat) : ofRatio true num den = -ofRatio false num den :=
  (neg_ofRatio false num den).symm

/-- A nonnegative value of a finite number is that of a magnitude. -/
theorem IsFinite.value_of_nonneg {x : Binary32} (finite_x : x.IsFinite)
    (nonneg : 0 ≤ x.value) :
    ∃ rank < 0x7f800000, x.value = magnitude rank / 2 ^ 149 := by
  obtain ⟨s, a, rfl⟩ := finite_x.exists_eq
  refine ⟨a, a.isLt, ?_⟩
  have magnitude_eq := value_abs (finite s a)
  rw [abs_of_nonneg nonneg] at magnitude_eq
  rw [← magnitude_eq]
  simp [Binary32.abs, value, units]

private theorem ofRatio_bounds {lo hi : Binary32} {num den : Nat} (positive : 0 < den)
    (finite_lo : lo.IsFinite) (finite_hi : hi.IsFinite)
    (lower : lo.value ≤ num / den / 2 ^ 149) (upper : num / den / 2 ^ 149 ≤ hi.value) :
    (ofRatio false num den).IsFinite ∧ lo.value ≤ (ofRatio false num den).value ∧
      (ofRatio false num den).value ≤ hi.value := by
  have unit : (0 : ℚ) < 2 ^ 149 := by positivity
  have den_pos : (0 : ℚ) < den := by exact_mod_cast positive
  have exact_nonneg : (0 : ℚ) ≤ num / den / 2 ^ 149 := by positivity
  obtain ⟨top, top_lt, top_eq⟩ := finite_hi.value_of_nonneg (exact_nonneg.trans upper)
  have below_top : nearestRank num den ≤ top := by
    apply nearestRank_le positive
    rw [top_eq, div_le_div_iff_of_pos_right unit, div_le_iff₀ den_pos] at upper
    exact_mod_cast upper
  have in_range : nearestRank num den < 0x7f800000 := below_top.trans_lt top_lt
  have result : ofRatio false num den = finite false ⟨nearestRank num den, in_range⟩ := by
    simp [ofRatio, in_range]
  rw [result]
  refine ⟨trivial, ?_, ?_⟩
  · rcases le_total lo.value 0 with nonpos | nonneg
    · exact nonpos.trans (by simp [value, units]; positivity)
    · obtain ⟨bottom, -, bottom_eq⟩ := finite_lo.value_of_nonneg nonneg
      have above_bottom : bottom ≤ nearestRank num den := by
        apply le_nearestRank positive
        rw [bottom_eq, div_le_div_iff_of_pos_right unit, le_div_iff₀ den_pos] at lower
        exact_mod_cast lower
      rw [bottom_eq]
      simp only [value, units, div_le_div_iff_of_pos_right unit, Bool.false_eq_true, if_false]
      exact_mod_cast magnitude_strictMono.monotone above_bottom
  · rw [top_eq]
    simp only [value, units, div_le_div_iff_of_pos_right unit, Bool.false_eq_true, if_false]
    exact_mod_cast magnitude_strictMono.monotone below_top

/-- Rounding does not carry an exact value past a number. -/
theorem RoundsTo.bounds {exact : ℚ} {x lo hi : Binary32} (rounded : RoundsTo exact x)
    (finite_lo : lo.IsFinite) (finite_hi : hi.IsFinite) (lower : lo.value ≤ exact)
    (upper : exact ≤ hi.value) : x.IsFinite ∧ lo.value ≤ x.value ∧ x.value ≤ hi.value := by
  obtain ⟨negative, num, den, positive, rfl, rfl⟩ := rounded
  cases negative with
  | false =>
    simp only [Bool.false_eq_true, if_false, one_mul] at lower upper
    exact ofRatio_bounds positive finite_lo finite_hi lower upper
  | true =>
    simp only [if_true, neg_mul, one_mul] at lower upper
    have mirrored : (ofRatio false num den).IsFinite ∧
        (-hi).value ≤ (ofRatio false num den).value ∧
          (ofRatio false num den).value ≤ (-lo).value := by
      apply ofRatio_bounds positive (isFinite_neg.mpr finite_hi) (isFinite_neg.mpr finite_lo)
      · rw [value_neg]
        linarith
      · rw [value_neg]
        linarith
    rw [value_neg, value_neg] at mirrored
    rw [ofRatio_true, isFinite_neg, value_neg]
    exact ⟨mirrored.1, by linarith [mirrored.2.2], by linarith [mirrored.2.1]⟩

/-- The natural number is rounded. -/
theorem ofNat_roundsTo (n : Nat) : RoundsTo n (ofNat n) :=
  ⟨false, n * 2 ^ 149, 1, Nat.one_pos, by rw [ofNat, Nat.shiftLeft_eq], by norm_num⟩

private theorem ofUnits_roundsTo (zeroSign : Bool) (value : Int) :
    RoundsTo (value / 2 ^ 149) (ofUnits zeroSign value) := by
  refine ⟨if value = 0 then zeroSign else decide (value < 0), value.natAbs, 1, Nat.one_pos, rfl, ?_⟩
  rcases lt_trichotomy value 0 with negative | rfl | positive
  · have magnitude_eq : ((value.natAbs : Nat) : ℚ) = -value := by
      rw [Nat.cast_natAbs, abs_of_neg negative]
      push_cast
      rfl
    simp [negative.ne, negative, magnitude_eq, neg_div]
  · simp
  · have magnitude_eq : ((value.natAbs : Nat) : ℚ) = value := by
      rw [Nat.cast_natAbs, abs_of_pos positive]
    simp [positive.ne', positive.not_gt, magnitude_eq]

/-- A sum is the exact sum, rounded. -/
theorem add_roundsTo {x y : Binary32} (finite_x : x.IsFinite) (finite_y : y.IsFinite) :
    RoundsTo (x.value + y.value) (x + y) := by
  obtain ⟨s, a, rfl⟩ := finite_x.exists_eq
  obtain ⟨t, b, rfl⟩ := finite_y.exists_eq
  have rounded := ofUnits_roundsTo (s && t) (units s a + units t b)
  rw [Int.cast_add, add_div] at rounded
  exact rounded

/-- A difference is the exact difference, rounded. -/
theorem sub_roundsTo {x y : Binary32} (finite_x : x.IsFinite) (finite_y : y.IsFinite) :
    RoundsTo (x.value - y.value) (x - y) := by
  have rounded := add_roundsTo finite_x (isFinite_neg.mpr finite_y)
  rw [value_neg, ← sub_eq_add_neg] at rounded
  exact rounded

/-- A product is the exact product, rounded. -/
theorem mul_roundsTo {x y : Binary32} (finite_x : x.IsFinite) (finite_y : y.IsFinite) :
    RoundsTo (x.value * y.value) (x * y) := by
  obtain ⟨s, a, rfl⟩ := finite_x.exists_eq
  obtain ⟨t, b, rfl⟩ := finite_y.exists_eq
  refine ⟨s != t, magnitude a * magnitude b, 2 ^ 149, by positivity, ?_, ?_⟩
  · change (finite s a).mul (finite t b) = _
    rw [mul, Nat.one_shiftLeft]
  · cases s <;> cases t <;> simp [value, units] <;> ring

/-- A quotient is the exact quotient, rounded. -/
theorem div_roundsTo {x y : Binary32} (finite_x : x.IsFinite) (finite_y : y.IsFinite)
    (nonzero : y.value ≠ 0) : RoundsTo (x.value / y.value) (x / y) := by
  obtain ⟨s, a, rfl⟩ := finite_x.exists_eq
  obtain ⟨t, b, rfl⟩ := finite_y.exists_eq
  have rank_ne : b.val ≠ 0 := by
    intro zero
    apply nonzero
    cases t <;> simp [value, units, zero, magnitude_zero]
  have positive : 0 < magnitude b := by
    rw [← magnitude_zero]
    exact magnitude_strictMono (Nat.pos_of_ne_zero rank_ne)
  have quotient : finite s a / finite t b =
      ofRatio (s != t) (magnitude a * 2 ^ 149) (magnitude b) := by
    change (finite s a).div (finite t b) = _
    rw [div, if_neg rank_ne, Nat.shiftLeft_eq]
  refine ⟨s != t, magnitude a * 2 ^ 149, magnitude b, positive, quotient, ?_⟩
  have divisor : (magnitude b : ℚ) ≠ 0 := by exact_mod_cast positive.ne'
  cases s <;> cases t <;> simp [value, units] <;> field_simp <;> norm_num

/-! ## Integers and fractions -/

/-- A significand of up to 24 binary digits can be shifted over the whole finite range. -/
theorem exists_magnitude {n shift : Nat} (small : n ≤ 2 ^ 24) (room : shift ≤ 252) :
    ∃ rank < 0x7f800000, magnitude rank = n * 2 ^ shift := by
  induction shift generalizing n with
  | zero => exact ⟨n, by omega, by simpa using magnitude_shift small (.inr rfl)⟩
  | succ shift induction =>
    rcases Nat.lt_or_ge n (2 ^ 23) with subnormal | normal
    · obtain ⟨rank, in_range, rank_eq⟩ := induction (n := 2 * n) (by omega) (by omega)
      exact ⟨rank, in_range, by rw [rank_eq, Nat.pow_succ]; ring⟩
    · exact ⟨n + (shift + 1) * 2 ^ 23, by omega, magnitude_shift small (.inl normal)⟩

/-- Fractions over a power of two with numerators of up to 24 binary digits are numbers. -/
theorem exists_value_eq_div {n : ℤ} {k : Nat} (small : n.natAbs ≤ 2 ^ 24) (fine : k ≤ 149) :
    ∃ x : Binary32, x.IsFinite ∧ x.value = n / 2 ^ k := by
  obtain ⟨rank, in_range, rank_eq⟩ :
      ∃ rank < 0x7f800000, magnitude rank = n.natAbs * 2 ^ (149 - k) :=
    exists_magnitude small (by omega)
  refine ⟨finite (decide (n < 0)) ⟨rank, in_range⟩, trivial, ?_⟩
  have units_eq : units (decide (n < 0)) rank = n * 2 ^ (149 - k) := by
    rw [units, rank_eq]
    push_cast
    rcases lt_or_ge n 0 with negative | nonneg
    · simp [negative, abs_of_neg negative]
    · simp [nonneg.not_gt, abs_of_nonneg nonneg]
  have unit : (2 : ℚ) ^ 149 = 2 ^ (149 - k) * 2 ^ k := by
    rw [← pow_add, Nat.sub_add_cancel fine]
  simp only [value, units_eq]
  push_cast
  rw [unit, mul_comm (n : ℚ), mul_div_mul_left _ _ (by positivity)]

/-- Integers of up to 24 binary digits are numbers. -/
theorem exists_value_eq_int {n : ℤ} (small : n.natAbs ≤ 2 ^ 24) :
    ∃ x : Binary32, x.IsFinite ∧ x.value = n := by
  simpa using exists_value_eq_div small (Nat.zero_le 149)

/-- The spacing around a quotient below `2 ^ 24 / 2 ^ k` is at most `1 / 2 ^ k`. -/
private theorem shift_add_le {num den k : Nat} (positive : 0 < den)
    (small : num * 2 ^ k < 2 ^ 173 * den) (fine : k ≤ 149) :
    (num / den).log2 - 23 + k ≤ 149 := by
  obtain ⟨-, lower⟩ := nearestRank_spacing num positive
  set shift := (num / den).log2 - 23
  rcases lower with zero | lower
  · omega
  have bound : 2 ^ (23 + shift + k) < 2 ^ 173 := by
    apply Nat.lt_of_mul_lt_mul_right (a := den)
    calc
      2 ^ (23 + shift + k) * den = 2 ^ 23 * (den * 2 ^ shift) * 2 ^ k := by
        rw [Nat.pow_add, Nat.pow_add]
        ring
      _ ≤ num * 2 ^ k := Nat.mul_le_mul_right _ lower
      _ < 2 ^ 173 * den := small
  have exponents := (Nat.pow_lt_pow_iff_right (by norm_num)).mp bound
  omega

private theorem ofRatio_near {num den k : Nat} (positive : 0 < den) (fine : k ≤ 149)
    (small : (num / den / 2 ^ 149 : ℚ) * 2 ^ k < 2 ^ 24)
    (finite_x : (ofRatio false num den).IsFinite) :
    |(ofRatio false num den).value - num / den / 2 ^ 149| ≤ 1 / 2 ^ (k + 1) := by
  have in_range : nearestRank num den < 0x7f800000 := by
    by_contra beyond
    rw [ofRatio, dif_neg beyond] at finite_x
    exact finite_x
  have result : (ofRatio false num den).value = magnitude (nearestRank num den) / 2 ^ 149 := by
    rw [ofRatio, dif_pos in_range]
    simp [value, units]
  have den_pos : (0 : ℚ) < den := by exact_mod_cast positive
  have unit : (0 : ℚ) < 2 ^ 149 := by positivity
  have small : num * 2 ^ k < 2 ^ 173 * den := by
    rw [div_div, div_mul_eq_mul_div, div_lt_iff₀ (by positivity)] at small
    have whole : (num : ℚ) * 2 ^ k < 2 ^ 173 * den := by
      calc
        (num : ℚ) * 2 ^ k < 2 ^ 24 * (den * 2 ^ 149) := small
        _ = 2 ^ 173 * den := by ring
    exact_mod_cast whole
  have grid : (2 : ℚ) ^ ((num / den).log2 - 23) * 2 ^ k ≤ 2 ^ 149 := by
    rw [← pow_add]
    exact pow_le_pow_right₀ (by norm_num) (shift_add_le positive small fine)
  obtain ⟨below, above⟩ := magnitude_nearestRank num positive
  set spacing := (2 : Nat) ^ ((num / den).log2 - 23) with spacing_eq
  have spacing_rat : (spacing : ℚ) * 2 ^ k ≤ 2 ^ 149 := by
    rw [spacing_eq]
    push_cast
    exact grid
  set rounded := magnitude (nearestRank num den)
  have below : (2 * num : ℚ) ≤ 2 * (rounded * den) + den * spacing := by exact_mod_cast below
  have above : (2 * (rounded * den) : ℚ) ≤ 2 * num + den * spacing := by exact_mod_cast above
  have off : |(rounded * den - num : ℚ)| ≤ den * spacing / 2 := by
    rw [abs_le]
    constructor <;> linarith
  have quotient : (rounded / 2 ^ 149 - num / den / 2 ^ 149 : ℚ) =
      (rounded * den - num) / (den * 2 ^ 149) := by
    field_simp
  rw [result, quotient, abs_div, abs_of_pos (show (0 : ℚ) < den * 2 ^ 149 by positivity),
    div_le_div_iff₀ (by positivity) (by positivity)]
  calc
    |(rounded * den - num : ℚ)| * 2 ^ (k + 1) ≤ den * spacing / 2 * 2 ^ (k + 1) :=
      mul_le_mul_of_nonneg_right off (by positivity)
    _ = den * (spacing * 2 ^ k) := by
      rw [pow_succ]
      ring
    _ ≤ den * 2 ^ 149 := mul_le_mul_of_nonneg_left spacing_rat den_pos.le
    _ = 1 * (den * 2 ^ 149) := (one_mul _).symm

/-- Rounding keeps the value of a number. -/
theorem RoundsTo.value_eq {x y : Binary32} (rounded : RoundsTo y.value x)
    (finite_y : y.IsFinite) : x.IsFinite ∧ x.value = y.value := by
  obtain ⟨finite_x, lower, upper⟩ := rounded.bounds finite_y finite_y le_rfl le_rfl
  exact ⟨finite_x, le_antisymm upper lower⟩

/-- Where the numbers lie at least as dense as the multiples of `1 / 2 ^ k`, rounding moves a value
by no more than half of that. -/
theorem RoundsTo.near {exact : ℚ} {x : Binary32} (rounded : RoundsTo exact x) {k : Nat}
    (fine : k ≤ 149) (small : |exact| * 2 ^ k ≤ 2 ^ 24) :
    x.IsFinite ∧ |x.value - exact| ≤ 1 / 2 ^ (k + 1) := by
  have unit : (0 : ℚ) < 2 ^ k := by positivity
  obtain ⟨top, finite_top, top_eq⟩ :=
    exists_value_eq_div (n := 2 ^ 24) (k := k) (by norm_num) fine
  have top_eq : top.value = 2 ^ 24 / 2 ^ k := by
    rw [top_eq]
    norm_num
  have finite_bottom : (-top).IsFinite := isFinite_neg.mpr finite_top
  rcases small.eq_or_lt with edge | inside
  · -- the ends of the range are numbers themselves
    have edge : |exact| = top.value := by rw [top_eq, ← edge, mul_div_cancel_right₀ _ unit.ne']
    have kept : x.IsFinite ∧ x.value = exact := by
      rcases eq_or_eq_neg_of_abs_eq edge with rfl | rfl
      · exact rounded.value_eq finite_top
      · rw [← value_neg] at rounded ⊢
        exact rounded.value_eq finite_bottom
    refine ⟨kept.1, ?_⟩
    rw [kept.2, sub_self, abs_zero]
    positivity
  · have size : |exact| ≤ top.value := by
      rw [top_eq, le_div_iff₀ unit]
      exact inside.le
    obtain ⟨low, high⟩ := abs_le.mp size
    rw [← value_neg] at low
    obtain ⟨finite_x, -, -⟩ := rounded.bounds finite_bottom finite_top low high
    refine ⟨finite_x, ?_⟩
    obtain ⟨negative, num, den, positive, rfl, rfl⟩ := rounded
    have magnitude_nonneg : (0 : ℚ) ≤ num / den / 2 ^ 149 := by positivity
    cases negative with
    | false =>
      simp only [Bool.false_eq_true, if_false, one_mul, abs_of_nonneg magnitude_nonneg] at inside ⊢
      exact ofRatio_near positive fine inside finite_x
    | true =>
      simp only [if_true, neg_mul, one_mul, abs_neg, abs_of_nonneg magnitude_nonneg] at inside ⊢
      rw [ofRatio_true, isFinite_neg] at finite_x
      rw [ofRatio_true, value_neg, ← neg_sub', abs_neg]
      exact ofRatio_near positive fine inside finite_x

end Multirotor.Binary32
