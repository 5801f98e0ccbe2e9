import Mathlib.Algebra.Order.Archimedean.Basic
import Multirotor.Proofs.Allocation.Leveling
import Multirotor.Proofs.Binary32.Order

/-!
# Normalizing any finite demands

The common scale and the common shift are rounded, and for huge demands the scale is subnormal and
products vanish.  Rounding keeps the order, though, so the speeds come in the order of the demands
and the lowest is shifted to exactly 0; and the reciprocal of the highest demand is close enough to
leave that demand within `2 ^ -20` of 1.
-/

namespace Multirotor

open Binary32

variable {highest lowest v w : Binary32}

/-! ## The common scale -/

/-- No demand grows by the common scale. -/
theorem scaleFor_finite (finite_highest : highest.IsFinite) (finite_v : v.IsFinite) :
    (scaleFor highest v).IsFinite := by
  rw [scaleFor]
  split
  · rename_i above
    have scale := one_div_between finite_highest above
    have product : |v.value * (1 / highest).value| ≤ |v.value| := by
      rw [abs_mul, abs_of_nonneg scale.value_nonneg]
      exact mul_le_of_le_one_right (abs_nonneg _) scale.value_le_one
    obtain ⟨low, high⟩ := abs_le.mp product
    rw [← value_abs] at high low
    rw [← value_neg] at low
    have finite_abs : v.abs.IsFinite := isFinite_abs.mpr finite_v
    exact ((mul_roundsTo finite_v scale.finite).bounds (isFinite_neg.mpr finite_abs) finite_abs
      low high).1
  · exact finite_v

theorem scaleFor_mono (finite_highest : highest.IsFinite) (finite_v : v.IsFinite)
    (finite_w : w.IsFinite) (le : v ≤ w) : scaleFor highest v ≤ scaleFor highest w := by
  rw [scaleFor, scaleFor]
  split
  · rename_i above
    have scale := one_div_between finite_highest above
    rw [le_iff_value finite_v finite_w] at le
    exact (mul_roundsTo finite_v scale.finite).mono (mul_roundsTo finite_w scale.finite)
      (mul_le_mul_of_nonneg_right le scale.value_nonneg)
  · exact le

/-- A demand below 0 is not scaled past 0. -/
theorem scaleFor_nonpos (finite_highest : highest.IsFinite) (finite_v : v.IsFinite)
    (negative : v < 0) : scaleFor highest v ≤ 0 := by
  have value_neg := (neg_iff_value finite_v).mp negative
  rw [scaleFor]
  split
  · rename_i above
    have scale := one_div_between finite_highest above
    exact (mul_roundsTo finite_v scale.finite).nonpos
      (mul_nonpos_of_nonpos_of_nonneg value_neg.le scale.value_nonneg)
  · exact (nonpos_iff_value finite_v).mpr value_neg.le

/-- The product of a number above 1 and its rounded reciprocal is close to 1, even where the
reciprocal is subnormal. -/
theorem le_mul_one_div (finite_highest : highest.IsFinite) (above : 1 < highest) :
    1 - 1 / 2 ^ 22 ≤ highest.value * (1 / highest).value := by
  rw [lt_iff_value one_between.finite finite_highest, value_one] at above
  have positive : 0 < highest.value := zero_lt_one.trans above
  have rounded := div_roundsTo one_between.finite finite_highest positive.ne'
  rw [value_one] at rounded
  obtain ⟨p, below, beyond⟩ := exists_nat_pow_near above.le (one_lt_two (α := ℚ))
  have size : highest.value < 2 ^ 128 := (le_abs_self _).trans_lt finite_highest.abs_value_lt
  have p_lt : p < 128 := (pow_lt_pow_iff_right₀ (one_lt_two (α := ℚ))).mp (below.trans_lt size)
  -- where the reciprocal is normal the spacing around it shrinks with it, else it is one unit
  set k := min 149 (p + 24) with k_eq
  have grid : |1 / highest.value| * 2 ^ k ≤ 2 ^ 24 := by
    rw [abs_of_pos (by positivity), one_div_mul_eq_div, div_le_iff₀ positive]
    calc
      (2 : ℚ) ^ k ≤ 2 ^ (24 + p) := pow_le_pow_right₀ one_le_two (by omega)
      _ = 2 ^ 24 * 2 ^ p := pow_add _ _ _
      _ ≤ 2 ^ 24 * highest.value := mul_le_mul_of_nonneg_left below (by positivity)
  obtain ⟨-, near⟩ := rounded.near (min_le_left 149 _) grid
  have off : highest.value * (1 / 2 ^ (k + 1)) ≤ 1 / 2 ^ 22 := by
    rw [mul_one_div, div_le_div_iff₀ (by positivity) (by positivity), one_mul]
    calc
      highest.value * 2 ^ 22 ≤ 2 ^ (p + 1) * 2 ^ 22 :=
        mul_le_mul_of_nonneg_right beyond.le (by positivity)
      _ = 2 ^ (p + 1 + 22) := (pow_add _ _ _).symm
      _ ≤ 2 ^ (k + 1) := pow_le_pow_right₀ one_le_two (by omega)
  calc
    1 - 1 / 2 ^ 22 ≤ 1 - highest.value * (1 / 2 ^ (k + 1)) := sub_le_sub_left off 1
    _ = highest.value * (1 / highest.value - 1 / 2 ^ (k + 1)) := by
      rw [mul_sub, mul_one_div_cancel positive.ne']
    _ ≤ highest.value * (1 / highest).value :=
      mul_le_mul_of_nonneg_left (by linarith [(abs_le.mp near).1]) positive.le

/-- The highest demand is scaled down to 1 or little less. -/
theorem le_scaleFor_highest (finite_highest : highest.IsFinite) (above : 1 < highest) :
    1 - 1 / 2 ^ 22 ≤ (scaleFor highest highest).value := by
  have scale := one_div_between finite_highest above
  obtain ⟨floor, finite_floor, floor_eq⟩ :=
    exists_value_eq_div (n := 2 ^ 22 - 1) (k := 22) (by norm_num) (by norm_num)
  have floor_eq : floor.value = 1 - 1 / 2 ^ 22 := by
    rw [floor_eq]
    norm_num
  have finite_scaled := scaleFor_finite finite_highest finite_highest
  rw [← floor_eq, ← le_iff_value finite_floor finite_scaled, scaleFor, if_pos above]
  apply (mul_roundsTo finite_highest scale.finite).le_of_value_le finite_floor
  rw [floor_eq]
  exact le_mul_one_div finite_highest above

/-! ## The common shift -/

section

variable (finite_lowest : lowest.IsFinite) (finite_v : v.IsFinite)
include finite_lowest finite_v

theorem shiftFor_ne_nan : shiftFor lowest v ≠ nan := by
  rw [shiftFor]
  split
  · exact (sub_roundsTo finite_v finite_lowest).ne_nan
  · exact finite_v.ne_nan

theorem le_shiftFor : v ≤ shiftFor lowest v := by
  rw [shiftFor]
  split
  · rename_i below
    rw [neg_iff_value finite_lowest] at below
    apply (sub_roundsTo finite_v finite_lowest).le_of_value_le finite_v
    linarith
  · exact (le_iff_value finite_v finite_v).mpr le_rfl

theorem shiftFor_mono (finite_w : w.IsFinite) (le : v ≤ w) :
    shiftFor lowest v ≤ shiftFor lowest w := by
  rw [shiftFor, shiftFor]
  split
  · rw [le_iff_value finite_v finite_w] at le
    exact (sub_roundsTo finite_v finite_lowest).mono (sub_roundsTo finite_w finite_lowest)
      (sub_le_sub_right le _)
  · exact le

end

/-- The lowest demand is shifted to exactly 0. -/
theorem shiftFor_self (finite_lowest : lowest.IsFinite) (nonpos : lowest ≤ 0) :
    (shiftFor lowest lowest).Alike 0 := by
  rw [shiftFor]
  split
  · have rounded := sub_roundsTo finite_lowest finite_lowest
    rw [sub_self, ← value_zero] at rounded
    exact rounded.alike zero_between.finite
  · rename_i fits
    rw [neg_iff_value finite_lowest, not_lt, ← nonneg_iff_value finite_lowest] at fits
    exact alike_of_le_of_le nonpos fits

/-! ## Lists of demands -/

/-- The two demands that decide the common scale and the common shift. -/
structure Decisive (values : List Binary32) (top bottom : Binary32) : Prop where
  top_mem : top ∈ values
  bottom_mem : bottom ∈ values
  /-- No demand is above the one that decides the scale. -/
  le_top : ∀ v ∈ values, v ≤ top
  /-- Once scaled, no demand is below the one that decides the shift. -/
  bottom_le : ∀ v ∈ values, scaleFor top bottom ≤ scaleFor top v
  level_eq : ∀ v, Normalization.clampAndShift.level values v =
    clampUnit (shiftFor (scaleFor top bottom) (scaleFor top v))

theorem clampAndShift_eq_map (values : List Binary32) :
    clampAndShift values = values.map (Normalization.clampAndShift.level values) :=
  normalize_eq_map .clampAndShift values

variable {values : List Binary32}

theorem exists_decisive (nonempty : values ≠ []) (finite_values : ∀ v ∈ values, v.IsFinite) :
    ∃ top bottom, Decisive values top bottom := by
  obtain ⟨top_mem, le_top⟩ := foldl_greatest_isGreatest nonempty finite_values
  have finite_top := finite_values _ top_mem
  have finite_scaled : ∀ v ∈ scaleDown values, v.IsFinite := by
    rw [scaleDown_eq_map, List.forall_mem_map]
    exact fun v mem => scaleFor_finite finite_top (finite_values v mem)
  have nonempty_scaled : scaleDown values ≠ [] := by
    rw [scaleDown_eq_map]
    exact mt List.map_eq_nil_iff.mp nonempty
  obtain ⟨lowest_mem, lowest_le⟩ := foldl_least_isLeast nonempty_scaled finite_scaled
  have level_eq (v : Binary32) : Normalization.clampAndShift.level values v =
      clampUnit (shiftFor ((scaleDown values).foldl least (.infinity false))
        (scaleFor (values.foldl greatest (.infinity true)) v)) := rfl
  rw [scaleDown_eq_map] at lowest_mem lowest_le level_eq
  obtain ⟨bottom, bottom_mem, bottom_eq⟩ := List.mem_map.mp lowest_mem
  rw [← bottom_eq] at lowest_le level_eq
  exact ⟨_, bottom, top_mem, bottom_mem, le_top, List.forall_mem_map.mp lowest_le, level_eq⟩

namespace Decisive

variable {top bottom : Binary32} (decisive : Decisive values top bottom)
  (finite_values : ∀ v ∈ values, v.IsFinite)
include decisive finite_values

theorem finite_top : top.IsFinite := finite_values top decisive.top_mem

theorem finite_lowest : (scaleFor top bottom).IsFinite :=
  scaleFor_finite (decisive.finite_top finite_values) (finite_values bottom decisive.bottom_mem)

theorem level_mem (mem : v ∈ values) :
    0 ≤ Normalization.clampAndShift.level values v ∧
      Normalization.clampAndShift.level values v ≤ 1 := by
  rw [decisive.level_eq]
  apply clampUnit_mem
  exact shiftFor_ne_nan (decisive.finite_lowest finite_values)
    (scaleFor_finite (decisive.finite_top finite_values) (finite_values v mem))

theorem level_mono_of_scaled (v_mem : v ∈ values) (w_mem : w ∈ values)
    (le : scaleFor top v ≤ scaleFor top w) :
    Normalization.clampAndShift.level values v ≤ Normalization.clampAndShift.level values w := by
  have finite_top := decisive.finite_top finite_values
  rw [decisive.level_eq, decisive.level_eq]
  exact clampUnit_mono (shiftFor_mono (decisive.finite_lowest finite_values)
    (scaleFor_finite finite_top (finite_values v v_mem))
    (scaleFor_finite finite_top (finite_values w w_mem)) le)

theorem level_mono (v_mem : v ∈ values) (w_mem : w ∈ values) (le : v ≤ w) :
    Normalization.clampAndShift.level values v ≤ Normalization.clampAndShift.level values w :=
  decisive.level_mono_of_scaled finite_values v_mem w_mem
    (scaleFor_mono (decisive.finite_top finite_values) (finite_values v v_mem)
      (finite_values w w_mem) le)

/-- If any demand is below 0 the lowest becomes 0. -/
theorem level_bottom (mem : v ∈ values) (negative : v < 0) :
    (Normalization.clampAndShift.level values bottom).Alike 0 := by
  have nonpos : scaleFor top bottom ≤ 0 := Binary32.le_trans (decisive.bottom_le v mem)
    (scaleFor_nonpos (decisive.finite_top finite_values) (finite_values v mem) negative)
  rw [decisive.level_eq]
  exact (shiftFor_self (decisive.finite_lowest finite_values) nonpos).clampUnit

/-- If any demand is above 1 the highest becomes 1 or little less. -/
theorem level_top (mem : v ∈ values) (above : 1 < v) :
    1 - 1 / 2 ^ 22 ≤ (Normalization.clampAndShift.level values top).value := by
  have finite_top := decisive.finite_top finite_values
  have finite_scaled := scaleFor_finite finite_top finite_top
  have top_above : 1 < top := by
    have le := (le_iff_value (finite_values v mem) finite_top).mp (decisive.le_top v mem)
    rw [lt_iff_value one_between.finite (finite_values v mem)] at above
    exact (lt_iff_value one_between.finite finite_top).mpr (above.trans_le le)
  have raised : clampUnit (scaleFor top top) ≤ Normalization.clampAndShift.level values top := by
    rw [decisive.level_eq]
    exact clampUnit_mono (le_shiftFor (decisive.finite_lowest finite_values) finite_scaled)
  obtain ⟨finite_clamped, clamped_eq⟩ := clampUnit_value finite_scaled
  have level_between := between_of_le zero_between one_between
    (decisive.level_mem finite_values decisive.top_mem).1
    (decisive.level_mem finite_values decisive.top_mem).2
  rw [le_iff_value finite_clamped level_between.finite, clamped_eq] at raised
  have scaled := le_scaleFor_highest finite_top top_above
  calc
    (1 - 1 / 2 ^ 22 : ℚ) ≤ min 1 (scaleFor top top).value := le_min (by norm_num) scaled
    _ ≤ max 0 (min 1 (scaleFor top top).value) := le_max_right _ _
    _ ≤ (Normalization.clampAndShift.level values top).value := raised

end Decisive

/-- Finite demands are moved into the unit interval. -/
theorem clampAndShift_mem (finite_values : ∀ v ∈ values, v.IsFinite) :
    ∀ speed ∈ clampAndShift values, 0 ≤ speed ∧ speed ≤ 1 := by
  intro speed mem
  rw [clampAndShift_eq_map] at mem
  obtain ⟨v, v_mem, rfl⟩ := List.mem_map.mp mem
  obtain ⟨top, bottom, decisive⟩ := exists_decisive (List.ne_nil_of_mem v_mem) finite_values
  exact decisive.level_mem finite_values v_mem

/-- Demands inside the unit interval are returned as they are. -/
theorem clampAndShift_eq_self (unit : ∀ v ∈ values, 0 ≤ v ∧ v ≤ 1) :
    clampAndShift values = values := by
  rcases eq_or_ne values [] with rfl | nonempty
  · rfl
  have finite_values (v : Binary32) (mem : v ∈ values) : v.IsFinite :=
    (between_of_le zero_between one_between (unit v mem).1 (unit v mem).2).finite
  obtain ⟨top, bottom, decisive⟩ := exists_decisive nonempty finite_values
  have unscaled (v : Binary32) : scaleFor top v = v :=
    if_neg (not_lt_of_le (unit top decisive.top_mem).2)
  have unshifted (v : Binary32) : shiftFor bottom v = v :=
    if_neg (not_lt_of_le (unit bottom decisive.bottom_mem).1)
  rw [clampAndShift_eq_map]
  conv_rhs => rw [← List.map_id values]
  apply List.map_congr_left
  intro v mem
  rw [decisive.level_eq, unscaled, unscaled, unshifted, clampUnit_eq_self (unit v mem), id]

theorem normalize_eq_self (policy : Normalization) (unit : ∀ v ∈ values, 0 ≤ v ∧ v ≤ 1) :
    normalize policy values = values := by
  have clamped : clampOutputs values = values := by
    rw [clampOutputs, List.map_congr_left fun v mem => clampUnit_eq_self (unit v mem),
      List.map_id']
  cases policy with
  | clampAndShift => exact clampAndShift_eq_self unit
  | headroom => exact clamped
  | staticWeight => exact clamped

/-- What normalizing makes of demands. -/
structure Leveled (demands speeds : List Binary32) : Prop where
  length : speeds.length = demands.length
  unit : ∀ speed ∈ speeds, speed ≠ nan ∧ 0 ≤ speed ∧ speed ≤ 1
  /-- The speeds come in the order of the demands. -/
  ordered : ∀ (i j : Nat) (v w v' w' : Binary32), demands[i]? = some v → demands[j]? = some w →
    speeds[i]? = some v' → speeds[j]? = some w' → v ≤ w → v' ≤ w'
  kept : (∀ v ∈ demands, 0 ≤ v ∧ v ≤ 1) → speeds = demands
  /-- If a demand is below 0, the least speed is 0, with either sign. -/
  least : (∃ v ∈ demands, v < 0) → ∃ speed ∈ speeds, speed.Alike 0 ∧ ∀ other ∈ speeds, speed ≤ other
  /-- If a demand is above 1, the greatest speed is almost 1. -/
  greatest : (∃ v ∈ demands, 1 < v) →
    ∃ speed ∈ speeds, 1 - 1 / 2 ^ 20 ≤ speed.value ∧ ∀ other ∈ speeds, other ≤ speed

/-- Finite demands, however many and however large, come out in order within the unit interval and
touch its ends on each side on which they exceed it; a second pass changes nothing. -/
theorem clampAndShift_leveled (finite_values : ∀ v ∈ values, v.IsFinite) :
    Leveled values (clampAndShift values) ∧
      clampAndShift (clampAndShift values) = clampAndShift values := by
  rcases eq_or_ne values [] with rfl | nonempty
  · have empty : clampAndShift [] = [] := rfl
    rw [empty, empty]
    refine ⟨⟨rfl, ?_, ?_, fun _ => rfl, ?_, ?_⟩, rfl⟩ <;> simp
  obtain ⟨top, bottom, decisive⟩ := exists_decisive nonempty finite_values
  have unit := clampAndShift_mem finite_values
  refine ⟨⟨?_, ?_, ?_, clampAndShift_eq_self, ?_, ?_⟩, clampAndShift_eq_self unit⟩
  · rw [clampAndShift_eq_map, List.length_map]
  · exact fun speed mem => ⟨ne_nan_of_le (unit speed mem).1, unit speed mem⟩
  · intro i j v w v' w' v_found w_found v'_found w'_found le
    rw [clampAndShift_eq_map, List.getElem?_map] at v'_found w'_found
    rw [v_found] at v'_found
    rw [w_found] at w'_found
    cases v'_found
    cases w'_found
    exact decisive.level_mono finite_values (List.mem_of_getElem? v_found)
      (List.mem_of_getElem? w_found) le
  · rintro ⟨v, mem, negative⟩
    rw [clampAndShift_eq_map]
    refine ⟨_, List.mem_map_of_mem decisive.bottom_mem,
      decisive.level_bottom finite_values mem negative, List.forall_mem_map.mpr fun w w_mem => ?_⟩
    exact decisive.level_mono_of_scaled finite_values decisive.bottom_mem w_mem
      (decisive.bottom_le w w_mem)
  · rintro ⟨v, mem, above⟩
    rw [clampAndShift_eq_map]
    refine ⟨_, List.mem_map_of_mem decisive.top_mem,
      le_trans (by norm_num) (decisive.level_top finite_values mem above),
      List.forall_mem_map.mpr fun w w_mem => ?_⟩
    exact decisive.level_mono finite_values w_mem decisive.top_mem (decisive.le_top w w_mem)

/-- The largest number, a half and a tiny demand below 0, which vanishes. -/
theorem clampAndShift_leveled_largest :
    let values : List Binary32 :=
      [.finite false 0x7f7fffff, .finite false 0x3f000000, .finite true 0x0da24260]
    (∀ v ∈ values, v.IsFinite) ∧
      (Leveled values (clampAndShift values) ∧
        clampAndShift (clampAndShift values) = clampAndShift values) ∧
      (clampAndShift values).map toBits = [0x3f7fffff, 0x00100000, 0x80000000] := by
  intro values
  have finite_values : ∀ v ∈ values, v.IsFinite := by simp [values]
  exact ⟨finite_values, clampAndShift_leveled finite_values, by decide +kernel⟩

end Multirotor
