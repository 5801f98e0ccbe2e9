import Mathlib.Algebra.BigOperators.Group.List.Basic
import Mathlib.Order.Bounds.Defs
import Multirotor.Proofs.Allocation.ExactLaw

/-!
# Torques of normalized demands

The common scale weakens all torques by one factor, and the common shift makes none because the
attitude columns of every geometry cancel exactly.  So as long as the clamp behind them has nothing
to do, the speeds turn the vehicle as the demands would, only less; what rounding adds on the motors
stays below a hundred-thousandth altogether.
-/

namespace Multirotor

open Binary32

/-- The share of a command axis in one motor. -/
def Factors.share (f : Factors) : Axis → Binary32
  | .roll => f.roll
  | .pitch => f.pitch
  | .yaw => f.yaw
  | .thrust => f.throttle

/-- What motor powers add up to on an axis when each counts by the share of its motor.  On an
attitude axis this is the torque about it. -/
def torque (axis : Axis) (table : List Factors) (powers : List ℚ) : ℚ :=
  (List.zipWith (fun row power => (row.share axis).value * power) table powers).sum

variable {axis : Axis}

theorem torque_cons (row : Factors) (table : List Factors) (power : ℚ) (powers : List ℚ) :
    torque axis (row :: table) (power :: powers) =
      (row.share axis).value * power + torque axis table powers := by
  rw [torque, List.zipWith_cons_cons, List.sum_cons, torque]

/-- A common scale multiplies a torque, and a common shift adds to it as far as the shares do not
cancel. -/
theorem torque_map (scale shift : ℚ) {table : List Factors} {powers : List ℚ}
    (same : table.length = powers.length) :
    torque axis table (powers.map fun power => power * scale - shift) =
      scale * torque axis table powers -
        shift * (table.map fun row => (row.share axis).value).sum := by
  induction table generalizing powers with
  | nil => simp [torque]
  | cons row table induction =>
    obtain ⟨power, powers, rfl⟩ := List.exists_cons_of_length_eq_add_one same.symm
    rw [List.map_cons, torque_cons, torque_cons, induction (Nat.succ.inj same), List.map_cons,
      List.sum_cons]
    ring

/-- The shares of the motors of a geometry in an attitude axis cancel exactly. -/
theorem Geometry.sum_share (g : Geometry) (attitude : axis ≠ .thrust) :
    (g.table.map fun row => (row.share axis).value).sum = 0 := by
  cases axis with
  | thrust => exact absurd rfl attitude
  | roll | pitch | yaw =>
    cases g <;>
      simp [Geometry.table, Geometry.arms, Factors.share, value_neg, value_zero]

theorem Factors.InUnits.abs_share_le {f : Factors} (inUnits : f.InUnits) (axis : Axis) :
    |(f.share axis).value| ≤ 1 := by
  obtain ⟨roll, pitch, yaw, throttle⟩ := inUnits
  have size {share : Binary32} (bounds : -1 ≤ share ∧ share ≤ 1) : |share.value| ≤ 1 := by
    exact_mod_cast (between_units bounds).abs_value_le
  cases axis with
  | roll => exact size roll
  | pitch => exact size pitch
  | yaw => exact size yaw
  | thrust => exact size throttle

/-- A torque takes over the error of each motor at most once. -/
theorem torque_close {table : List Factors} (inUnits : ∀ row ∈ table, row.InUnits) {d : ℚ}
    (nonneg : 0 ≤ d) {powers : List Binary32} {exacts : List ℚ}
    (near : List.Forall₂ (·.Near · d) powers exacts) :
    |torque axis table (powers.map value) - torque axis table exacts| ≤ table.length * d := by
  induction table generalizing powers exacts with
  | nil => simp [torque]
  | cons row table induction =>
    obtain ⟨row_units, inUnits⟩ := List.forall_mem_cons.mp inUnits
    cases near with
    | nil =>
      simp only [List.map_nil, torque, List.zipWith_nil_right, sub_self, abs_zero]
      positivity
    | @cons power exact powers exacts first rest =>
      have part : |(row.share axis).value * (power.value - exact)| ≤ d := by
        rw [abs_mul]
        calc
          |(row.share axis).value| * |power.value - exact| ≤ 1 * |power.value - exact| :=
            mul_le_mul_of_nonneg_right (row_units.abs_share_le axis) (abs_nonneg _)
          _ ≤ d := by rw [one_mul]; exact first.close
      have split : torque axis (row :: table) ((power :: powers).map value) -
          torque axis (row :: table) (exact :: exacts) =
            (row.share axis).value * (power.value - exact) +
              (torque axis table (powers.map value) - torque axis table exacts) := by
        rw [List.map_cons, torque_cons, torque_cons]
        ring
      rw [split, List.length_cons, Nat.cast_succ, add_mul, one_mul, add_comm (_ * d)]
      exact (abs_add_le _ _).trans (add_le_add part (induction inUnits rest))

/-! ## Demands that fit -/

section

variable {demands : List ℚ} {highest lowest : ℚ}

private theorem foldl_max_eq (greatest : IsGreatest {u | u ∈ demands} highest) (floor : ℚ) :
    demands.foldl max floor = max floor highest := by
  have found : demands.max? = some highest := List.max?_eq_some_iff.mpr greatest
  rw [List.foldl_max, found, Option.getD_some]

private theorem foldl_min_eq (least : IsLeast {u | u ∈ demands} lowest) (ceiling : ℚ) :
    demands.foldl min ceiling = min ceiling lowest := by
  have found : demands.min? = some lowest := List.min?_eq_some_iff.mpr least
  rw [List.foldl_min, found, Option.getD_some]

/-- Where the scaled and shifted demands fit, normalizing them is scaling and shifting. -/
theorem exactNormalize_of_fits (greatest : IsGreatest {u | u ∈ demands} highest)
    (least : IsLeast {u | u ∈ demands} lowest) {scale : ℚ} (scale_eq : scale = 1 / max 1 highest)
    (fits : scale * highest - min 0 (scale * lowest) ≤ 1) :
    exactNormalize .clampAndShift demands =
      demands.map fun u => u * scale - min 0 (scale * lowest) := by
  have nonneg : 0 ≤ scale := by
    rw [scale_eq]
    positivity
  have scaled : exactScaleDown demands = demands.map (· * scale) := by
    rw [exactScaleDown, foldl_max_eq greatest, scale_eq]
  have scaled_least : IsLeast {u | u ∈ demands.map (· * scale)} (scale * lowest) := by
    rw [mul_comm]
    refine ⟨List.mem_map.mpr ⟨lowest, least.1, rfl⟩, ?_⟩
    intro u mem
    obtain ⟨v, v_mem, rfl⟩ := List.mem_map.mp mem
    exact mul_le_mul_of_nonneg_right (least.2 v_mem) nonneg
  rw [exactNormalize, scaled, exactShiftUp, foldl_min_eq scaled_least, exactClamp, List.map_map,
    List.map_map]
  apply List.map_congr_left
  intro u mem
  -- the shift keeps every demand between 0 and the highest, so the clamp changes nothing
  have lower : scale * lowest ≤ u * scale := by
    rw [mul_comm]
    exact mul_le_mul_of_nonneg_right (least.2 mem) nonneg
  have upper : u * scale ≤ scale * highest := by
    rw [mul_comm scale]
    exact mul_le_mul_of_nonneg_right (greatest.2 mem) nonneg
  have floor := min_le_right 0 (scale * lowest)
  simp only [Function.comp_apply]
  rw [min_eq_right (by linarith), max_eq_right (by linarith)]

end

/-- What scaling, shifting and clamping of demands between -4 and 4 adds to the exact result. -/
theorem clampAndShift_close {values : List Binary32} (bounded : ∀ v ∈ values, v.Between (-4) 4) :
    List.Forall₂ (·.Near · (12 / 2 ^ 24)) (clampAndShift values)
      (exactNormalize .clampAndShift (values.map value)) := by
  have near : List.Forall₂ (·.Near · 0) values (values.map value) := by
    rw [List.forall₂_map_right_iff, List.forall₂_same]
    exact fun v mem => Near.of_finite (bounded v mem).finite
  have scaled := scaleDown_near le_rfl bounded near
  have shifted := shiftUp_near (by positivity) (scaleDown_between (by norm_num) bounded) scaled
  exact (clampOutputs_near shifted).imp fun _ _ close => close.mono (by norm_num)

/-- Where the scaled and shifted demands of a command fit, the speeds make the torques of the
demands times the scale. -/
theorem allocate_keeps_torque (g : Geometry) {c : Command} (inBounds : c.InBounds)
    (attitude : axis ≠ .thrust) {highest lowest scale : ℚ}
    (greatest : IsGreatest {u | u ∈ (mix g.table c).map value} highest)
    (least : IsLeast {u | u ∈ (mix g.table c).map value} lowest)
    (scale_eq : scale = 1 / max 1 highest)
    (fits : scale * highest - min 0 (scale * lowest) ≤ 1) :
    |torque axis g.table ((allocate g.table .clampAndShift c).map value) -
        scale * torque axis g.table ((mix g.table c).map value)| ≤ 1 / 100000 := by
  have short : g.table.length ≤ maxMotors := g.length_table.trans_le g.motorCount_le
  have inUnits := g.inUnits_of_mem_table
  have bounded : ∀ v ∈ mix g.table c, v.Between (-4) 4 := by
    intro v mem
    obtain ⟨row, row_mem, rfl⟩ := List.mem_map.mp mem
    exact Factors.demand_between (inUnits row (List.mem_of_mem_take row_mem)) inBounds.within
      (by norm_num)
  have same : g.table.length = ((mix g.table c).map value).length := by
    rw [List.length_map, mix, List.length_map, List.take_of_length_le short]
  have exact_torque : torque axis g.table
      (exactNormalize .clampAndShift ((mix g.table c).map value)) =
        scale * torque axis g.table ((mix g.table c).map value) := by
    rw [exactNormalize_of_fits greatest least scale_eq fits, torque_map _ _ same,
      g.sum_share attitude, mul_zero, sub_zero]
  rw [← exact_torque]
  have count : (g.table.length : ℚ) ≤ 6 := by exact_mod_cast short
  calc
    _ ≤ (g.table.length : ℚ) * (12 / 2 ^ 24) :=
      torque_close inUnits (by positivity) (clampAndShift_close bounded)
    _ ≤ 6 * (12 / 2 ^ 24) := mul_le_mul_of_nonneg_right count (by positivity)
    _ ≤ 1 / 100000 := by norm_num

/-- A rolling hexarotor whose highest demand is 5/4 makes four fifths of the torque it demands. -/
theorem allocate_keeps_torque_rolling :
    let table := Geometry.hexX.table
    let c : Command := ⟨0.75, 0.5, 0, 0⟩
    let demands := (mix table c).map value
    c.InBounds ∧ Axis.roll ≠ .thrust ∧ IsGreatest {u | u ∈ demands} (5 / 4) ∧
      IsLeast {u | u ∈ demands} (1 / 4) ∧ (4 / 5 : ℚ) = 1 / max 1 (5 / 4) ∧
        (4 / 5 : ℚ) * (5 / 4) - min 0 (4 / 5 * (1 / 4)) ≤ 1 ∧
          |torque .roll table ((allocate table .clampAndShift c).map value) -
            4 / 5 * torque .roll table demands| ≤ 1 / 100000 := by
  intro table c demands
  have inBounds : c.InBounds := by decide
  have attitude : Axis.roll ≠ .thrust := by simp
  have demands_eq : demands = [1 / 4, 5 / 4, 1, 1 / 2, 1 / 2, 1] := by decide +kernel
  have range : ∀ u ∈ demands, 1 / 4 ≤ u ∧ u ≤ 5 / 4 := by
    rw [demands_eq]
    norm_num
  have greatest : IsGreatest {u | u ∈ demands} (5 / 4) :=
    ⟨by simp [demands_eq], fun u mem => (range u mem).2⟩
  have least : IsLeast {u | u ∈ demands} (1 / 4) :=
    ⟨by simp [demands_eq], fun u mem => (range u mem).1⟩
  have scale_eq : (4 / 5 : ℚ) = 1 / max 1 (5 / 4) := by norm_num
  have fits : (4 / 5 : ℚ) * (5 / 4) - min 0 (4 / 5 * (1 / 4)) ≤ 1 := by norm_num
  exact ⟨inBounds, attitude, greatest, least, scale_eq, fits,
    allocate_keeps_torque .hexX inBounds attitude greatest least scale_eq fits⟩

end Multirotor
