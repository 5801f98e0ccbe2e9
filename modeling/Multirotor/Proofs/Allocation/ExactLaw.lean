import Mathlib.Data.List.Forall2
import Multirotor.Proofs.Allocation.UnitInterval

/-!
# The allocation refines an exact law

`exactAllocate` is the allocation over the rational numbers, without any rounding.  The speeds
differ from it by at most `1 / 100000`: shaping the command costs at most seven units of `2 ^ -24`
per axis, mixing seven more, and the common scale and shift of demands between -4 and 4 multiply
what has come together by no more than ten.  Where rounding makes the two take different branches,
both branches are close to each other.
-/

namespace Multirotor

open Binary32

/-! ## The exact law -/

/-- A command with exact axes. -/
structure ExactCommand where
  /-- Collective thrust. -/
  thrust : ℚ
  /-- Roll demand. -/
  roll : ℚ
  /-- Pitch demand. -/
  pitch : ℚ
  /-- Yaw demand. -/
  yaw : ℚ

/-- The command that the numbers stand for. -/
def Command.exact (c : Command) : ExactCommand :=
  ⟨c.thrust.value, c.roll.value, c.pitch.value, c.yaw.value⟩

namespace ExactCommand

/-- The sum of the magnitudes of the attitude axes. -/
def attitude (c : ExactCommand) : ℚ := |c.roll| + |c.pitch| + |c.yaw|

/-- The room that the thrust leaves on both sides. -/
def headroom (c : ExactCommand) : ℚ := min c.thrust (1 - c.thrust)

/-- The share of the attitude demand that fits into the headroom. -/
def fittingShare (c : ExactCommand) : ℚ :=
  if c.attitude = 0 then 1 else min 1 (c.headroom / c.attitude)

/-- The command that a policy mixes. -/
def prescale (policy : Normalization) (c : ExactCommand) : ExactCommand :=
  match policy with
  | .clampAndShift => c
  | .headroom =>
    ⟨c.thrust, c.roll * c.fittingShare, c.pitch * c.fittingShare, c.yaw * c.fittingShare⟩
  | .staticWeight percent =>
    let weight : ℚ := percent.toNat / 100
    ⟨c.thrust * weight, c.roll * (1 - weight), c.pitch * (1 - weight), c.yaw * (1 - weight)⟩

/-- The raw demand on one motor. -/
def demand (c : ExactCommand) (f : Factors) : ℚ :=
  c.thrust * f.throttle.value + c.roll * f.roll.value + c.pitch * f.pitch.value +
    c.yaw * f.yaw.value

end ExactCommand

def exactScaleDown (values : List ℚ) : List ℚ := values.map (· * (1 / values.foldl max 1))

def exactShiftUp (values : List ℚ) : List ℚ := values.map (· - values.foldl min 0)

def exactClamp (values : List ℚ) : List ℚ := values.map fun v => max 0 (min 1 v)

def exactNormalize (policy : Normalization) (values : List ℚ) : List ℚ :=
  match policy with
  | .clampAndShift => exactClamp (exactShiftUp (exactScaleDown values))
  | .headroom | .staticWeight _ => exactClamp values

/-- The speeds for one command if nothing is rounded. -/
def exactAllocate (table : List Factors) (policy : Normalization) (c : Command) : List ℚ :=
  exactNormalize policy (table.map (c.exact.prescale policy).demand)

/-! ## Prescaling -/

/-- Every axis of a command is close to the exact axis. -/
structure Command.Near (c : Command) (exact : ExactCommand) (error : ℚ) : Prop where
  /-- The thrust is close. -/
  thrust : c.thrust.Near exact.thrust error
  /-- The roll demand is close. -/
  roll : c.roll.Near exact.roll error
  /-- The pitch demand is close. -/
  pitch : c.pitch.Near exact.pitch error
  /-- The yaw demand is close. -/
  yaw : c.yaw.Near exact.yaw error

/-- Demands that nearly agree are shrunk alike to headrooms that nearly agree. -/
theorem shrunk_close {demand demand' room room' share share' axis d : ℚ}
    (fits : demand * share = min demand room) (fits' : demand' * share' = min demand' room')
    (range : 0 ≤ share' ∧ share' ≤ 1) (demands : |demand' - demand| ≤ d)
    (rooms : |room' - room| ≤ d) (part : |axis| ≤ demand) :
    |axis * share' - axis * share| ≤ 2 * d := by
  have d_nonneg : 0 ≤ d := (abs_nonneg _).trans demands
  have demand_nonneg : 0 ≤ demand := (abs_nonneg _).trans part
  have fitting : |min demand' room' - min demand room| ≤ d :=
    (abs_min_sub_min_le_max _ _ _ _).trans (max_le demands rooms)
  have rest : |(demand - demand') * share'| ≤ d := by
    rw [abs_mul, abs_sub_comm, abs_of_nonneg range.1]
    exact (mul_le_of_le_one_right (abs_nonneg _) range.2).trans demands
  calc
    |axis * share' - axis * share| = |axis| * |share' - share| := by rw [← mul_sub, abs_mul]
    _ ≤ demand * |share' - share| := mul_le_mul_of_nonneg_right part (abs_nonneg _)
    _ = |min demand' room' - min demand room + (demand - demand') * share'| := by
      rw [← fits, ← fits', ← abs_of_nonneg demand_nonneg, ← abs_mul, abs_of_nonneg demand_nonneg]
      congr 1
      ring
    _ ≤ d + d := (abs_add_le _ _).trans (add_le_add fitting rest)
    _ = 2 * d := (two_mul d).symm

theorem ExactCommand.attitude_mul_fittingShare {c : ExactCommand} (room : 0 ≤ c.headroom) :
    c.attitude * c.fittingShare = min c.attitude c.headroom := by
  have nonneg : 0 ≤ c.attitude := by
    unfold attitude
    positivity
  rw [fittingShare]
  split
  · rename_i zero
    rw [zero, zero_mul, min_eq_left room]
  · rename_i nonzero
    rw [mul_min_of_nonneg _ _ nonneg, mul_one, mul_div_cancel₀ _ nonzero]

theorem ExactCommand.abs_le_attitude (c : ExactCommand) :
    |c.roll| ≤ c.attitude ∧ |c.pitch| ≤ c.attitude ∧ |c.yaw| ≤ c.attitude := by
  have roll := abs_nonneg c.roll
  have pitch := abs_nonneg c.pitch
  have yaw := abs_nonneg c.yaw
  unfold attitude
  refine ⟨?_, ?_, ?_⟩ <;> linarith

/-- An axis takes over the error of its scale. -/
theorem shrunk_near {axis scale : Binary32} {share e : ℚ} (axis_between : axis.Between (-1) 1)
    (scale_between : scale.Between (-1) 1) (near : scale.Near share e) (size : |share| ≤ 1) :
    (axis * scale).Near (axis.value * share) (e + 1 / 2 ^ 25) := by
  have product := (Near.of_finite axis_between.finite).mul_between near axis_between scale_between
    (by exact_mod_cast size) (k := 24) (by norm_num) (by norm_num)
  rwa [Int.cast_one, one_mul, zero_mul, add_zero] at product

theorem attitude_near {c : Command} (within : c.Within 1) :
    (c.roll.abs + c.pitch.abs + c.yaw.abs).Near c.exact.attitude (3 / 2 ^ 24) := by
  have size {axis : Binary32} (between : axis.Between (-1) 1) : axis.abs.Between (-1) 1 :=
    between.abs.mono (by norm_num) le_rfl
  have near {axis : Binary32} (between : axis.Between (-1) 1) : axis.abs.Near |axis.value| 0 :=
    (Near.of_finite between.finite).abs
  have first := (near within.roll).add_between (near within.pitch) (size within.roll)
    (size within.pitch) (k := 23) (by norm_num) (by norm_num)
  have first_size := (size within.roll).add (size within.pitch) (by norm_num)
  have second := first.add_between (near within.yaw) (a := 2) first_size (size within.yaw)
    (k := 22) (by norm_num) (by norm_num)
  apply second.mono
  norm_num

theorem headroom_near {c : Command} (inBounds : c.InBounds) :
    (c.thrust.least (1 - c.thrust)).Near c.exact.headroom (1 / 2 ^ 24) := by
  have thrust := thrust_between inBounds
  have thrust_near := Near.of_finite thrust.finite
  have rest := (Near.of_between one_between).sub_between thrust_near (a := 1) (b := 1)
    (one_between.mono (by norm_num) le_rfl) inBounds.within.thrust (k := 23) (by norm_num)
    (by norm_num)
  have headroom := (thrust_near.mono (e := 1 / 2 ^ 24) (by positivity)).least
    (rest.mono (by norm_num))
  rwa [Int.cast_one] at headroom

/-- A command in bounds leaves room, or none, but no less. -/
theorem Command.InBounds.exact_headroom_nonneg {c : Command} (inBounds : c.InBounds) :
    0 ≤ c.exact.headroom := by
  have thrust := thrust_between inBounds
  exact le_min thrust.value_nonneg (sub_nonneg.mpr thrust.value_le_one)

/-- Either branch of the headroom policy shrinks the attitude axes by the share that fits the
rounded demand into the rounded headroom. -/
theorem exists_share {c : Command} (inBounds : c.InBounds) :
    let demand := (c.roll.abs + c.pitch.abs + c.yaw.abs).value
    let room := (c.thrust.least (1 - c.thrust)).value
    ∃ share : ℚ, (0 ≤ share ∧ share ≤ 1) ∧ demand * share = min demand room ∧
      (prescale .headroom c).Near
        ⟨c.thrust.value, c.roll.value * share, c.pitch.value * share, c.yaw.value * share⟩
        (1 / 2 ^ 24) := by
  intro demand room
  have within := inBounds.within
  have demand_between := attitude_between within
  have room_between := headroom_between inBounds
  have demand_nonneg : 0 ≤ demand := demand_between.value_nonneg
  have room_nonneg : 0 ≤ room := room_between.value_nonneg
  have same {axis : Binary32} (between : axis.Between (-1) 1) :
      axis.Near axis.value (1 / 2 ^ 24) := (Near.of_finite between.finite).mono (by positivity)
  have tight_iff := lt_iff_value room_between.finite demand_between.finite
  have positive_iff := pos_iff_value demand_between.finite
  simp only [prescale]
  split
  · rename_i shrinks
    have scale_between := headroom_scale_between inBounds shrinks.1 shrinks.2
    set scale := c.thrust.least (1 - c.thrust) / (c.roll.abs + c.pitch.abs + c.yaw.abs)
    rw [tight_iff, positive_iff] at shrinks
    obtain ⟨tight, positive⟩ := shrinks
    have share_nonneg : 0 ≤ room / demand := div_nonneg room_nonneg demand_nonneg
    have share_le : room / demand ≤ 1 := (div_le_one positive).mpr tight.le
    have size : |room / demand| ≤ 1 := by rwa [abs_of_nonneg share_nonneg]
    have scale_near := Near.of_roundsTo (u := room / demand) (d := 0) (k := 24)
      (div_roundsTo room_between.finite demand_between.finite positive.ne') (by norm_num)
      (by rw [sub_self, abs_zero]) (by linarith)
    rw [zero_add] at scale_near
    have scale_units := scale_between.mono (show (-1 : ℤ) ≤ 0 by norm_num) le_rfl
    have shrunk {axis : Binary32} (between : axis.Between (-1) 1) :
        (axis * scale).Near (axis.value * (room / demand)) (1 / 2 ^ 24) :=
      (shrunk_near between scale_units scale_near size).mono (by norm_num)
    refine ⟨room / demand, ⟨share_nonneg, share_le⟩, ?_, same within.thrust, shrunk within.roll,
      shrunk within.pitch, shrunk within.yaw⟩
    rw [mul_div_cancel₀ _ positive.ne', min_eq_right tight.le]
  · rename_i fits
    rw [tight_iff, positive_iff, not_and_or, not_lt, not_lt] at fits
    have le : demand ≤ room := fits.elim id fun nonpos => nonpos.trans room_nonneg
    refine ⟨1, ⟨zero_le_one, le_rfl⟩, by rw [mul_one, min_eq_left le], ?_⟩
    simp only [mul_one]
    exact ⟨same within.thrust, same within.roll, same within.pitch, same within.yaw⟩

/-- Prescaling to the headroom is exact up to seven units of `2 ^ -24`. -/
theorem prescale_near_headroom {c : Command} (inBounds : c.InBounds) :
    (prescale .headroom c).Near (c.exact.prescale .headroom) (7 / 2 ^ 24) := by
  obtain ⟨share, range, fits, near⟩ := exists_share inBounds
  have demands := (attitude_near inBounds.within).close
  have rooms := ((headroom_near inBounds).mono (e := 3 / 2 ^ 24) (by norm_num)).close
  have exact_fits := c.exact.attitude_mul_fittingShare inBounds.exact_headroom_nonneg
  obtain ⟨roll_part, pitch_part, yaw_part⟩ := c.exact.abs_le_attitude
  have shrunk {x : Binary32} {axis : ℚ} (near : x.Near (axis * share) (1 / 2 ^ 24))
      (part : |axis| ≤ c.exact.attitude) : x.Near (axis * c.exact.fittingShare) (7 / 2 ^ 24) :=
    (near.of_close (shrunk_close exact_fits fits range demands rooms part)).mono (by norm_num)
  exact ⟨near.thrust.mono (by norm_num), shrunk near.roll roll_part, shrunk near.pitch pitch_part,
    shrunk near.yaw yaw_part⟩

/-- Prescaling by a fixed weight is exact up to two units of `2 ^ -24`. -/
theorem prescale_near_staticWeight {c : Command} (inBounds : c.InBounds) {percent : UInt8}
    (sensible : percent.toNat ≤ 100) :
    (prescale (.staticWeight percent) c).Near (c.exact.prescale (.staticWeight percent))
      (2 / 2 ^ 24) := by
  have within := inBounds.within
  have weight_between : (ofNat percent.toNat / 100).Between 0 1 :=
    percentage_between (k := 1) (by omega) (by norm_num)
  have weight_units := weight_between.mono (show (-1 : ℤ) ≤ 0 by norm_num) le_rfl
  have weight_near := percentage_near sensible
  have rest_units := (one_between.sub weight_between (by norm_num)).mono
    (show (-1 : ℤ) ≤ 1 - 1 by norm_num) (show (1 : ℤ) - 0 ≤ 1 by norm_num)
  have rest_near := (Near.of_between one_between).sub_between weight_near
    (one_between.mono (by norm_num) le_rfl) weight_units (k := 23) (by norm_num) (by norm_num)
  rw [Int.cast_one] at rest_near
  have nonneg : (0 : ℚ) ≤ percent.toNat / 100 := by positivity
  have le : (percent.toNat / 100 : ℚ) ≤ 1 := by
    rw [div_le_one (by norm_num)]
    exact_mod_cast sensible
  have weight_size : |(percent.toNat / 100 : ℚ)| ≤ 1 := abs_le.mpr ⟨by linarith, le⟩
  have rest_size : |(1 - percent.toNat / 100 : ℚ)| ≤ 1 :=
    abs_le.mpr ⟨by linarith, by linarith⟩
  have shrunk {axis : Binary32} (between : axis.Between (-1) 1) :
      (axis * (1 - ofNat percent.toNat / 100)).Near (axis.value * (1 - percent.toNat / 100))
        (2 / 2 ^ 24) :=
    (shrunk_near between rest_units rest_near rest_size).mono (by norm_num)
  exact ⟨(shrunk_near within.thrust weight_units weight_near weight_size).mono (by norm_num),
    shrunk within.roll, shrunk within.pitch, shrunk within.yaw⟩

/-! ## Mixing -/

theorem Factors.demand_near {f : Factors} {c : Command} {exact : ExactCommand} {d : ℚ}
    (inUnits : f.InUnits) (within : c.Within 1) (near : c.Near exact d) :
    (f.demand c).Near (exact.demand f) (4 * d + 7 / 2 ^ 24) := by
  obtain ⟨roll, pitch, yaw, throttle⟩ := inUnits
  have part {axis share : Binary32} {u : ℚ} (axis_between : axis.Between (-1) 1)
      (axis_near : axis.Near u d) (bounds : -1 ≤ share ∧ share ≤ 1) :
      (axis * share).Between (-1) 1 ∧ (axis * share).Near (u * share.value) (d + 1 / 2 ^ 25) := by
    have share_between := between_units bounds
    have product := axis_near.mul_between (Near.of_finite share_between.finite) axis_between
      share_between share_between.abs_value_le (k := 24) (by norm_num) (by norm_num)
    rw [Int.cast_one, mul_zero, mul_one, zero_add] at product
    exact ⟨axis_between.mul share_between (by norm_num), product⟩
  obtain ⟨thrust_between, thrust_near⟩ := part within.thrust near.thrust throttle
  obtain ⟨roll_between, roll_near⟩ := part within.roll near.roll roll
  obtain ⟨pitch_between, pitch_near⟩ := part within.pitch near.pitch pitch
  obtain ⟨yaw_between, yaw_near⟩ := part within.yaw near.yaw yaw
  have first_between := thrust_between.add roll_between (by norm_num)
  have first := thrust_near.add_between roll_near thrust_between roll_between (k := 23)
    (by norm_num) (by norm_num)
  have second_between := first_between.add pitch_between (by norm_num)
  have second := first.add_between pitch_near (a := 2) first_between pitch_between (k := 22)
    (by norm_num) (by norm_num)
  have third := second.add_between yaw_near (a := 3) second_between yaw_between (k := 22)
    (by norm_num) (by norm_num)
  apply third.mono
  linarith

/-! ## Normalizing -/

/-- Reciprocals of numbers above 1 are closer than the numbers. -/
private theorem one_div_close {a b : ℚ} (one_le_a : 1 ≤ a) (one_le_b : 1 ≤ b) :
    |1 / a - 1 / b| ≤ |a - b| := by
  have a_pos : 0 < a := zero_lt_one.trans_le one_le_a
  have b_pos : 0 < b := zero_lt_one.trans_le one_le_b
  rw [div_sub_div _ _ a_pos.ne' b_pos.ne', one_mul, mul_one, abs_div, abs_sub_comm,
    abs_of_pos (mul_pos a_pos b_pos)]
  exact div_le_self (abs_nonneg _) (one_le_mul_of_one_le_of_one_le one_le_a one_le_b)

/-- Common scales that nearly agree. -/
private theorem scaled_close {v u highest highest' d : ℚ} (value : |v - u| ≤ d) (size : |v| ≤ 4)
    (one_le : 1 ≤ highest) (one_le' : 1 ≤ highest') (close : |highest' - highest| ≤ d) :
    |v * (1 / highest') - u * (1 / highest)| ≤ 5 * d := by
  have scale_le : |1 / highest| ≤ 1 := by
    rw [abs_of_nonneg (by positivity)]
    exact (div_le_one (zero_lt_one.trans_le one_le)).mpr one_le
  have scales := (one_div_close one_le' one_le).trans close
  have d_nonneg : 0 ≤ d := (abs_nonneg _).trans value
  calc
    |v * (1 / highest') - u * (1 / highest)| =
        |v * (1 / highest' - 1 / highest) + (v - u) * (1 / highest)| := by
      congr 1
      ring
    _ ≤ |v| * |1 / highest' - 1 / highest| + |v - u| * |1 / highest| := by
      rw [← abs_mul, ← abs_mul]
      exact abs_add_le _ _
    _ ≤ 4 * d + d * 1 :=
      add_le_add (mul_le_mul size scales (abs_nonneg _) (by norm_num))
        (mul_le_mul value scale_le (abs_nonneg _) d_nonneg)
    _ = 5 * d := by ring

private theorem scaleFor_near {highest v : Binary32} {u peak d : ℚ}
    (finite_highest : highest.IsFinite) (v_between : v.Between (-4) 4) (near : v.Near u d)
    (one_le : 1 ≤ peak) (close : |max 1 highest.value - peak| ≤ d) :
    (scaleFor highest v).Near (u * (1 / peak)) (5 * d + 4 / 2 ^ 24) := by
  have scaled := scaled_close near.close v_between.abs_value_le one_le (le_max_left 1 _) close
  have above_iff := lt_iff_value one_between.finite finite_highest
  rw [value_one] at above_iff
  rw [scaleFor]
  split
  · rename_i above
    have scale_between := one_div_between finite_highest above
    rw [above_iff] at above
    have positive : 0 < highest.value := zero_lt_one.trans above
    have share_le : |1 / highest.value| ≤ 1 := by
      rw [abs_of_pos (by positivity)]
      exact (div_le_one positive).mpr above.le
    have rounded := div_roundsTo one_between.finite finite_highest positive.ne'
    rw [value_one] at rounded
    have scale_near := Near.of_roundsTo (u := 1 / highest.value) (d := 0) (k := 24) rounded
      (by norm_num) (by rw [sub_self, abs_zero]) (by linarith)
    have product := (Near.of_finite v_between.finite).mul_between scale_near v_between
      (scale_between.mono (show (-1 : ℤ) ≤ 0 by norm_num) le_rfl) (by exact_mod_cast share_le)
      (k := 22) (by norm_num) (by norm_num)
    rw [max_eq_right above.le] at scaled
    apply (product.of_close scaled).mono
    norm_num
    linarith
  · rename_i fits
    rw [above_iff, not_lt] at fits
    rw [max_eq_left fits, div_one, mul_one] at scaled
    apply ((Near.of_finite v_between.finite).of_close scaled).mono
    norm_num

/-- The common scale takes over the error of the highest demand four times. -/
theorem scaleDown_near {values : List Binary32} {exacts : List ℚ} {d : ℚ} (nonneg : 0 ≤ d)
    (bounded : ∀ v ∈ values, v.Between (-4) 4)
    (near : List.Forall₂ (·.Near · d) values exacts) :
    List.Forall₂ (·.Near · (5 * d + 4 / 2 ^ 24)) (scaleDown values) (exactScaleDown exacts) := by
  rcases eq_or_ne values [] with rfl | nonempty
  · cases near
    exact .nil
  obtain ⟨finite_highest, highest_eq⟩ :=
    foldl_greatest_value nonempty (fun v mem => (bounded v mem).finite) 1
  have close := foldl_max_close nonneg near 1
  rw [← highest_eq] at close
  rw [scaleDown_eq_map, exactScaleDown, List.forall₂_map_left_iff, List.forall₂_map_right_iff]
  refine ((List.forall₂_and_left _ _).mpr ⟨bounded, near⟩).imp fun v u each => ?_
  exact scaleFor_near finite_highest each.1 each.2 (le_foldl_max 1 exacts).1 close

private theorem shiftFor_near {lowest v : Binary32} {u floor d : ℚ}
    (lowest_between : lowest.Between (-4) 4) (v_between : v.Between (-4) 4) (near : v.Near u d)
    (close : |min 0 lowest.value - floor| ≤ d) :
    (shiftFor lowest v).Near (u - floor) (2 * d + 4 / 2 ^ 24) := by
  have below_iff := neg_iff_value lowest_between.finite
  rw [shiftFor]
  split
  · rename_i below
    rw [below_iff] at below
    rw [min_eq_right below.le] at close
    have difference := near.sub_between (y := lowest) ⟨lowest_between.finite, close⟩ v_between
      lowest_between (k := 21) (by norm_num) (by norm_num)
    apply difference.mono
    norm_num
    linarith
  · rename_i fits
    rw [below_iff, not_lt] at fits
    rw [min_eq_left fits] at close
    have same : |u - (u - floor)| ≤ d := by
      rwa [sub_sub_cancel, ← abs_neg, ← zero_sub]
    apply (near.of_close same).mono
    norm_num
    linarith

/-- The common shift takes over the error of the lowest demand. -/
theorem shiftUp_near {values : List Binary32} {exacts : List ℚ} {d : ℚ} (nonneg : 0 ≤ d)
    (bounded : ∀ v ∈ values, v.Between (-4) 4)
    (near : List.Forall₂ (·.Near · d) values exacts) :
    List.Forall₂ (·.Near · (2 * d + 4 / 2 ^ 24)) (shiftUp values) (exactShiftUp exacts) := by
  rcases eq_or_ne values [] with rfl | nonempty
  · cases near
    exact .nil
  obtain ⟨finite_lowest, lowest_eq⟩ :=
    foldl_least_value nonempty (fun v mem => (bounded v mem).finite) 0
  have lowest_mem :=
    (foldl_least_isLeast nonempty fun v mem => (bounded v mem).finite).1
  have close := foldl_min_close nonneg near 0
  rw [← lowest_eq] at close
  rw [shiftUp_eq_map, exactShiftUp, List.forall₂_map_left_iff, List.forall₂_map_right_iff]
  refine ((List.forall₂_and_left _ _).mpr ⟨bounded, near⟩).imp fun v u each => ?_
  exact shiftFor_near (bounded _ lowest_mem) each.1 each.2 close

theorem clampOutputs_near {values : List Binary32} {exacts : List ℚ} {d : ℚ}
    (near : List.Forall₂ (·.Near · d) values exacts) :
    List.Forall₂ (·.Near · d) (clampOutputs values) (exactClamp exacts) := by
  rw [clampOutputs, exactClamp, List.forall₂_map_left_iff, List.forall₂_map_right_iff]
  exact near.imp fun _ _ close => close.clampUnit

/-- The common scale is at most 1, so it keeps every bound. -/
theorem scaleDown_between {values : List Binary32} {b : ℤ} (small : b ≤ 2 ^ 24)
    (bounded : ∀ v ∈ values, v.Between (-b) b) : ∀ v ∈ scaleDown values, v.Between (-b) b := by
  rw [scaleDown_eq_map, List.forall_mem_map]
  intro v mem
  obtain ⟨highest_mem, -⟩ := foldl_greatest_isGreatest (List.ne_nil_of_mem mem)
    fun w w_mem => (bounded w w_mem).finite
  rw [scaleFor]
  split
  · rename_i above
    have scale := (one_div_between (bounded _ highest_mem).finite above).mono
      (show (-1 : ℤ) ≤ 0 by norm_num) le_rfl
    have product := (bounded v mem).mul scale (by omega)
    rwa [mul_one] at product
  · exact bounded v mem

/-- What normalizing makes of demands between -4 and 4 that are exact up to seven units of
`2 ^ -24`. -/
theorem clampAndShift_near {values : List Binary32} {exacts : List ℚ}
    (bounded : ∀ v ∈ values, v.Between (-4) 4)
    (near : List.Forall₂ (·.Near · (7 / 2 ^ 24)) values exacts) :
    List.Forall₂ (·.Near · (82 / 2 ^ 24)) (clampAndShift values)
      (exactClamp (exactShiftUp (exactScaleDown exacts))) := by
  have scaled := scaleDown_near (by positivity) bounded near
  have shifted := shiftUp_near (by positivity) (scaleDown_between (by norm_num) bounded) scaled
  exact (clampOutputs_near shifted).imp fun _ _ close => close.mono (by norm_num)

theorem mix_near {table : List Factors} (short : table.length ≤ maxMotors)
    (inUnits : ∀ row ∈ table, row.InUnits) {c : Command} {exact : ExactCommand} {d : ℚ}
    (within : c.Within 1) (near : c.Near exact d) :
    (∀ v ∈ mix table c, v.Between (-4) 4) ∧
      List.Forall₂ (·.Near · (4 * d + 7 / 2 ^ 24)) (mix table c) (table.map exact.demand) := by
  rw [mix, List.take_of_length_le short, List.forall₂_map_left_iff, List.forall₂_map_right_iff,
    List.forall₂_same]
  refine ⟨fun v mem => ?_, fun row mem => Factors.demand_near (inUnits row mem) within near⟩
  obtain ⟨row, row_mem, rfl⟩ := List.mem_map.mp mem
  exact Factors.demand_between (inUnits row row_mem) within (by norm_num)

/-- The speeds are those of the exact law up to a hundred-thousandth. -/
theorem allocate_near {table : List Factors} (short : table.length ≤ maxMotors)
    (inUnits : ∀ row ∈ table, row.InUnits) {policy : Normalization}
    (accepted : policy.validate = .ok ()) {c : Command} (inBounds : c.InBounds) :
    List.Forall₂ (fun speed exact => speed.Near exact (1 / 100000)) (allocate table policy c)
      (exactAllocate table policy c) := by
  have within := prescale_within_one inBounds accepted
  have mixed {d : ℚ} (near : (prescale policy c).Near (c.exact.prescale policy) d) :=
    mix_near short inUnits within near
  -- a clamp alone passes on the error of the demands
  have clamped {d : ℚ} (near : (prescale policy c).Near (c.exact.prescale policy) d)
      (small : d ≤ 7 / 2 ^ 24) :=
    (clampOutputs_near (mixed near).2).imp fun _ _ close =>
      close.mono (show 4 * d + 7 / 2 ^ 24 ≤ 1 / 100000 by linarith)
  cases policy with
  | clampAndShift =>
    have exact_command : c.Near c.exact 0 :=
      ⟨Near.of_finite within.thrust.finite, Near.of_finite within.roll.finite,
        Near.of_finite within.pitch.finite, Near.of_finite within.yaw.finite⟩
    obtain ⟨bounded, demands⟩ := mixed exact_command
    rw [mul_zero, zero_add] at demands
    exact (clampAndShift_near bounded demands).imp fun _ _ close => close.mono (by norm_num)
  | headroom => exact clamped (prescale_near_headroom inBounds) le_rfl
  | staticWeight percent =>
    exact clamped (prescale_near_staticWeight inBounds (Normalization.weight_le accepted))
      (by norm_num)

/-- A hexarotor with demands on both sides of the unit interval. -/
theorem allocate_near_saturated :
    let table := Geometry.hexX.table
    let c : Command := ⟨0.9, -0.7, 0.3, 1⟩
    table.length ≤ maxMotors ∧ (∀ row ∈ table, row.InUnits) ∧
      Normalization.clampAndShift.validate = .ok () ∧ c.InBounds ∧
        List.Forall₂ (fun speed exact => speed.Near exact (1 / 100000))
          (allocate table .clampAndShift c) (exactAllocate table .clampAndShift c) := by
  intro table c
  have short : table.length ≤ maxMotors := by decide
  have inUnits : ∀ row ∈ table, row.InUnits := Geometry.inUnits_of_mem_table _
  have inBounds : c.InBounds := by decide
  exact ⟨short, inUnits, rfl, inBounds, allocate_near short inUnits rfl inBounds⟩

end Multirotor
