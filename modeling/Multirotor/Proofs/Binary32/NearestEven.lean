import Multirotor.Proofs.Binary32.Rounding

/-!
# Correct rounding

The rounded result of an operation is a finite number nearest to the exact value, the one whose last
bit is zero if two are equally near, and an infinity from half a spacing beyond the largest finite
number on.  All of this is the place where rounding passes from one rank to the next: the midpoint
of their magnitudes (`lt_nearestRank_iff`).
-/

namespace Multirotor.Binary32

/-- A value prefers one point to another: the one is nearer, or as near and the tie goes to it. -/
def Prefers (exact : ℚ) (tie : Prop) (a b : ℚ) : Prop :=
  |a - exact| < |b - exact| ∨ |a - exact| = |b - exact| ∧ tie

/-- The number is an exact value rounded to nearest, ties to even. -/
def IsNearestEven (exact : ℚ) (x : Binary32) : Prop :=
  match x with
  | nan => False
  | infinity negative => 2 ^ 128 - 2 ^ 103 ≤ if negative then -exact else exact
  | finite _ rank =>
    |exact| < 2 ^ 128 - 2 ^ 103 ∧ ∀ y : Binary32, y.IsFinite → y.value ≠ x.value →
      Prefers exact (rank.val % 2 = 0) x.value y.value

/-! ## Midpoints -/

/-- Rounding to an integer passes an integer at the midpoint to the next one, and at the midpoint
itself if the integer is odd. -/
theorem lt_nearestEven_iff {k num den : Nat} (positive : 0 < den) :
    k < nearestEven num den ↔
      (2 * k + 1) * den < 2 * num ∨ (2 * k + 1) * den = 2 * num ∧ k % 2 = 1 := by
  have split_num := Nat.div_add_mod num den
  have rest := Nat.mod_lt num positive
  have expand : (2 * k + 1) * den = 2 * (den * k) + den := by ring
  rw [expand]
  simp only [nearestEven]
  rcases lt_trichotomy k (num / den) with less | rfl | more
  · have room := Nat.mul_le_mul_left den (Nat.succ_le_of_lt less)
    rw [Nat.mul_succ] at room
    split_ifs <;> omega
  · split_ifs <;> omega
  · have room := Nat.mul_le_mul_left den (Nat.succ_le_of_lt more)
    rw [Nat.mul_succ] at room
    split_ifs <;> omega

/-- Rounding to a rank passes a rank at the midpoint to the next magnitude, and at the midpoint
itself if the rank is odd. -/
theorem lt_nearestRank_iff {rank num den : Nat} (positive : 0 < den) :
    rank < nearestRank num den ↔
      (magnitude rank + magnitude (rank + 1)) * den < 2 * num ∨
        (magnitude rank + magnitude (rank + 1)) * den = 2 * num ∧ rank % 2 = 1 := by
  have gap := Nat.mul_lt_mul_of_pos_right (magnitude_strictMono (Nat.lt_succ_self rank)) positive
  rw [Nat.succ_eq_add_one] at gap
  rw [Nat.add_mul]
  rcases Nat.lt_or_ge num (magnitude (rank + 1) * den) with below | reached
  · rcases Nat.lt_or_ge (magnitude rank * den) num with inside | above
    · -- between two neighbouring magnitudes the spacing is the one that rounding chooses
      obtain ⟨upper, lower⟩ := nearestRank_spacing num positive
      rw [nearestRank_eq]
      set shift := (num / den).log2 - 23
      have spacing : 0 < den * 2 ^ shift := Nat.mul_pos positive (Nat.two_pow_pos _)
      have not_beyond : rank < 2 ^ 24 + shift * 2 ^ 23 := by
        rw [← magnitude_strictMono.lt_iff_lt, magnitude_shift le_rfl (.inl (by norm_num))]
        apply Nat.lt_of_mul_lt_mul_right (a := den)
        linarith
      have normal : shift = 0 ∨ 2 ^ 23 + shift * 2 ^ 23 ≤ rank := by
        refine lower.imp_right fun lower => ?_
        rw [← Nat.lt_succ_iff, ← magnitude_strictMono.lt_iff_lt,
          magnitude_shift (by norm_num) (.inl le_rfl)]
        apply Nat.lt_of_mul_lt_mul_right (a := den)
        linarith
      obtain ⟨n, rfl⟩ : ∃ n, rank = n + shift * 2 ^ 23 := ⟨rank - shift * 2 ^ 23, by omega⟩
      have next : n + shift * 2 ^ 23 + 1 = (n + 1) + shift * 2 ^ 23 := by omega
      have parity : (n + shift * 2 ^ 23) % 2 = n % 2 := by omega
      have midpoint : n * 2 ^ shift * den + (n + 1) * 2 ^ shift * den =
          (2 * n + 1) * (den * 2 ^ shift) := by ring
      rw [Nat.add_lt_add_iff_right, lt_nearestEven_iff spacing, next, parity,
        magnitude_shift (by omega) (by omega), magnitude_shift (by omega) (by omega), midpoint]
    · have not_passed := nearestRank_le positive above
      omega
  · have passed := le_nearestRank positive reached
    omega

private theorem magnitude_last : magnitude 0x7f7fffff = (2 ^ 24 - 1) * 2 ^ 253 := by
  rw [show 0x7f7fffff = (2 ^ 24 - 1) + 253 * 2 ^ 23 by norm_num,
    magnitude_shift (by norm_num) (.inl (by norm_num))]

/-- The largest finite magnitude. -/
theorem IsFinite.abs_value_le {x : Binary32} (finite_x : x.IsFinite) :
    |x.value| ≤ 2 ^ 128 - 2 ^ 104 := by
  rw [← value_abs]
  obtain ⟨rank, in_range, rank_eq⟩ := IsFinite.value_of_nonneg (isFinite_abs.mpr finite_x)
    (value_abs x ▸ abs_nonneg x.value)
  have le := magnitude_strictMono.monotone (Nat.le_of_lt_succ in_range)
  rw [magnitude_last, ← Nat.cast_le (α := ℚ)] at le
  rw [rank_eq, div_le_iff₀ (by positivity)]
  push_cast at le
  linarith

/-- Rounding overflows from half a spacing beyond the largest finite number on. -/
private theorem overflow_iff {num den : Nat} (positive : 0 < den) :
    0x7f800000 ≤ nearestRank num den ↔ (2 ^ 128 - 2 ^ 103 : ℚ) ≤ num / den / 2 ^ 149 := by
  have top : magnitude (0x7f7fffff + 1) = 2 ^ 24 * 2 ^ 253 := by
    rw [show 0x7f7fffff + 1 = 2 ^ 24 + 253 * 2 ^ 23 by norm_num,
      magnitude_shift le_rfl (.inl (by norm_num))]
  have den_pos : (0 : ℚ) < den := by exact_mod_cast positive
  have passed : 0x7f7fffff < nearestRank num den ↔ _ := lt_nearestRank_iff positive
  rw [magnitude_last, top] at passed
  have reached : 0x7f800000 ≤ nearestRank num den ↔
      ((2 ^ 24 - 1) * 2 ^ 253 + 2 ^ 24 * 2 ^ 253) * den ≤ 2 * num := by omega
  rw [reached, le_div_iff₀ (by positivity), le_div_iff₀ den_pos, ← Nat.cast_le (α := ℚ)]
  push_cast
  constructor <;> intro le <;> linarith

/-! ## The nearest number -/

namespace Prefers

variable {exact a b c : ℚ} {tie : Prop}

theorem le (prefers : Prefers exact tie a b) : |a - exact| ≤ |b - exact| :=
  prefers.elim LT.lt.le fun equal => equal.1.le

theorem neg_iff : Prefers (-exact) tie (-a) (-b) ↔ Prefers exact tie a b := by
  rw [Prefers, Prefers, ← neg_sub', ← neg_sub', abs_neg, abs_neg]

theorem div_iff (positive : 0 < c) :
    Prefers (exact / c) tie (a / c) (b / c) ↔ Prefers exact tie a b := by
  rw [Prefers, Prefers, ← sub_div, ← sub_div, abs_div, abs_div, abs_of_pos positive,
    div_lt_div_iff_of_pos_right positive, div_left_inj' positive.ne']

/-- Of two points the one on the value's side of their midpoint is preferred. -/
theorem of_midpoint_below (less : b < a) (side : b + a < 2 * exact ∨ b + a = 2 * exact ∧ tie) :
    Prefers exact tie a b := by
  rcases side with beyond | ⟨middle, tie⟩
  · left
    rw [abs_sub_comm b, abs_of_pos (show 0 < exact - b by linarith), abs_lt]
    constructor <;> linarith
  · refine .inr ⟨?_, tie⟩
    rw [show a - exact = -(b - exact) by linarith, abs_neg]

theorem of_midpoint_above (less : a < b) (side : 2 * exact < a + b ∨ 2 * exact = a + b ∧ tie) :
    Prefers exact tie a b := by
  rw [← neg_iff]
  apply of_midpoint_below (neg_lt_neg less)
  rw [← neg_add, mul_neg, neg_lt_neg_iff, neg_inj, add_comm b, eq_comm]
  exact side

end Prefers

/-- A quotient lies on its rounded rank's side of the midpoint to a lower rank. -/
private theorem side_of_lt {rank num den : Nat} (positive : 0 < den)
    (below : rank < nearestRank num den) :
    (magnitude rank + magnitude (nearestRank num den)) * den < 2 * num ∨
      (magnitude rank + magnitude (nearestRank num den)) * den = 2 * num ∧
        nearestRank num den % 2 = 0 := by
  obtain ⟨k, k_eq⟩ : ∃ k, nearestRank num den = k + 1 :=
    Nat.exists_eq_succ_of_ne_zero (Nat.ne_zero_of_lt below)
  have last : k < nearestRank num den := k_eq ▸ Nat.lt_succ_self k
  have passed := (lt_nearestRank_iff positive).mp last
  rw [k_eq] at below ⊢
  rcases (Nat.le_of_lt_succ below).eq_or_lt with rfl | lower
  · exact passed.imp_right (.imp_right (by omega))
  · have steeper : (magnitude rank + magnitude (k + 1)) * den <
        (magnitude k + magnitude (k + 1)) * den :=
      Nat.mul_lt_mul_of_pos_right (Nat.add_lt_add_right (magnitude_strictMono lower) _) positive
    omega

/-- A quotient lies on its rounded rank's side of the midpoint to a higher rank. -/
private theorem side_of_gt {rank num den : Nat} (positive : 0 < den)
    (above : nearestRank num den < rank) :
    2 * num < (magnitude (nearestRank num den) + magnitude rank) * den ∨
      2 * num = (magnitude (nearestRank num den) + magnitude rank) * den ∧
        nearestRank num den % 2 = 0 := by
  have not_passed := mt (lt_nearestRank_iff positive).mpr (Nat.lt_irrefl (nearestRank num den))
  have next : (magnitude (nearestRank num den) + magnitude (nearestRank num den + 1)) * den ≤
      (magnitude (nearestRank num den) + magnitude rank) * den :=
    Nat.mul_le_mul_right _ (Nat.add_le_add_left (magnitude_strictMono.monotone above) _)
  omega

/-- A quotient prefers the magnitude of its rounded rank to all others. -/
private theorem nearestRank_preferred {rank num den : Nat} (positive : 0 < den)
    (other : rank ≠ nearestRank num den) :
    Prefers (num / den) (nearestRank num den % 2 = 0) (magnitude (nearestRank num den))
      (magnitude rank) := by
  have den_pos : (0 : ℚ) < den := by exact_mod_cast positive
  have double : (2 * (num / den) : ℚ) = (2 * num : Nat) / den := by
    push_cast
    ring
  rcases other.lt_or_gt with below | above
  · apply Prefers.of_midpoint_below (by exact_mod_cast magnitude_strictMono below)
    rw [double, lt_div_iff₀ den_pos, eq_div_iff den_pos.ne']
    exact_mod_cast side_of_lt positive below
  · apply Prefers.of_midpoint_above (by exact_mod_cast magnitude_strictMono above)
    rw [double, div_lt_iff₀ den_pos, div_eq_iff den_pos.ne']
    exact_mod_cast side_of_gt positive above

theorem IsNearestEven.neg {exact : ℚ} {x : Binary32} (nearest : IsNearestEven exact x) :
    IsNearestEven (-exact) (-x) := by
  change IsNearestEven (-exact) x.neg
  rcases x with _ | negative | ⟨negative, rank⟩
  · exact nearest
  · cases negative <;> simpa [IsNearestEven, Binary32.neg] using nearest
  · obtain ⟨small, nearest⟩ := nearest
    have value_neg_x : (finite negative rank).neg.value = -(finite negative rank).value :=
      value_neg (finite negative rank)
    refine ⟨by rwa [abs_neg], fun y finite_y different => ?_⟩
    rw [value_neg_x] at different ⊢
    rw [← Prefers.neg_iff, neg_neg, neg_neg, ← value_neg y]
    apply nearest (-y) (isFinite_neg.mpr finite_y)
    rw [value_neg]
    intro same
    exact different (neg_eq_iff_eq_neg.mp same)

private theorem ofRatio_isNearestEven {num den : Nat} (positive : 0 < den) :
    IsNearestEven (num / den / 2 ^ 149) (ofRatio false num den) := by
  have overflow : 0x7f800000 ≤ nearestRank num den ↔ _ := overflow_iff positive
  have unit : (0 : ℚ) < 2 ^ 149 := by positivity
  have nonneg : (0 : ℚ) ≤ num / den / 2 ^ 149 := by positivity
  rw [ofRatio]
  split
  · rename_i in_range
    have value_eq : (finite false ⟨nearestRank num den, in_range⟩).value =
        magnitude (nearestRank num den) / 2 ^ 149 := by simp [value, units]
    have preferred (rank : Nat) (other : rank ≠ nearestRank num den) :
        Prefers (num / den / 2 ^ 149) (nearestRank num den % 2 = 0)
          (magnitude (nearestRank num den) / 2 ^ 149) (magnitude rank / 2 ^ 149) :=
      (Prefers.div_iff unit).mpr (nearestRank_preferred positive other)
    refine ⟨?_, fun y finite_y different => ?_⟩
    · rw [abs_of_nonneg nonneg, ← not_le, ← overflow]
      omega
    rw [value_eq] at different ⊢
    rcases le_or_gt 0 y.value with nonneg_y | negative_y
    · obtain ⟨rank, -, rank_eq⟩ := finite_y.value_of_nonneg nonneg_y
      rw [rank_eq] at different ⊢
      apply preferred rank
      rintro rfl
      exact different rfl
    · -- a negative number is further away than zero
      have zero : |(magnitude (nearestRank num den) / 2 ^ 149 - num / den / 2 ^ 149 : ℚ)| ≤
          |(0 - num / den / 2 ^ 149 : ℚ)| := by
        rcases eq_or_ne 0 (nearestRank num den) with same | other
        · rw [← same, magnitude_zero, Nat.cast_zero, zero_div]
        · have origin := (preferred 0 other).le
          rwa [magnitude_zero, Nat.cast_zero, zero_div] at origin
      have further : (num / den / 2 ^ 149 : ℚ) < num / den / 2 ^ 149 - y.value := by
        rwa [lt_sub_comm, sub_self]
      rw [zero_sub, abs_neg, abs_of_nonneg nonneg] at zero
      left
      rw [abs_sub_comm y.value, abs_of_pos (nonneg.trans_lt further)]
      exact zero.trans_lt further
  · rename_i beyond
    exact overflow.mp (by omega)

/-- What an operation computes is the exact result, correctly rounded. -/
theorem RoundsTo.isNearestEven {exact : ℚ} {x : Binary32} (rounded : RoundsTo exact x) :
    IsNearestEven exact x := by
  obtain ⟨negative, num, den, positive, rfl, rfl⟩ := rounded
  cases negative with
  | false => simpa using ofRatio_isNearestEven positive
  | true => simpa [ofRatio_true] using (ofRatio_isNearestEven positive).neg

namespace IsNearestEven

variable {exact : ℚ} {x y : Binary32}

theorem isFinite (nearest : IsNearestEven exact x) (small : |exact| < 2 ^ 128 - 2 ^ 103) :
    x.IsFinite := by
  rcases x with _ | negative | _
  · exact nearest.elim
  · have size : (if negative then -exact else exact) ≤ |exact| := by
      split
      · exact neg_le_abs exact
      · exact le_abs_self exact
    exact absurd (le_trans nearest size) small.not_ge
  · trivial

/-- No finite number is nearer. -/
theorem abs_sub_le (nearest : IsNearestEven exact x) (finite_x : x.IsFinite)
    (finite_y : y.IsFinite) : |x.value - exact| ≤ |y.value - exact| := by
  obtain ⟨negative, rank, rfl⟩ := finite_x.exists_eq
  rcases eq_or_ne y.value (finite negative rank).value with same | different
  · rw [same]
  · exact (nearest.2 y finite_y different).le

end IsNearestEven

end Multirotor.Binary32
