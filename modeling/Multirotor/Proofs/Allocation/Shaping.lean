import Multirotor.Proofs.Allocation.ExactLaw

/-!
# Shaping only weakens a command

No accepted policy asks for more than the command does: the thrust does not grow, and each attitude
axis moves towards zero but not past it.  The headroom policy leaves so little attitude that every
demand fits the unit interval before anything is clamped.  Without rounding the demand on a motor
differs from the thrust by no more than the room; what rounding adds stays below a
hundred-thousandth.
-/

namespace Multirotor

open Binary32

/-! ## Shaped commands -/

/-- A number that has moved towards zero, if at all, and not past it. -/
structure Binary32.Shrunk (y x : Binary32) : Prop where
  /-- The magnitude has not grown. -/
  magnitude : y.abs ≤ x.abs
  /-- What was not negative is not negative. -/
  nonneg : 0 ≤ x → 0 ≤ y
  /-- What was not positive is not positive. -/
  nonpos : x ≤ 0 → y ≤ 0

namespace Binary32.Shrunk

variable {x scale : Binary32}

theorem refl (finite_x : x.IsFinite) : x.Shrunk x where
  magnitude := (le_iff_value (isFinite_abs.mpr finite_x) (isFinite_abs.mpr finite_x)).mpr le_rfl
  nonneg := id
  nonpos := id

/-- A fraction of a number, rounded, has shrunk. -/
theorem mul (finite_x : x.IsFinite) (fraction : scale.Between 0 1) : (x * scale).Shrunk x := by
  have rounded := mul_roundsTo finite_x fraction.finite
  have lower := fraction.value_nonneg
  have finite_abs : x.abs.IsFinite := isFinite_abs.mpr finite_x
  refine ⟨?_, fun nonneg => ?_, fun nonpos => ?_⟩
  · have size : |x.value * scale.value| ≤ x.abs.value := by
      rw [value_abs, abs_mul, abs_of_nonneg lower]
      exact mul_le_of_le_one_right (abs_nonneg _) fraction.value_le_one
    obtain ⟨low, high⟩ := abs_le.mp size
    rw [← value_neg] at low
    obtain ⟨finite_y, low, high⟩ :=
      rounded.bounds (isFinite_neg.mpr finite_abs) finite_abs low high
    rw [value_neg] at low
    rw [le_iff_value (isFinite_abs.mpr finite_y) finite_abs, value_abs]
    exact abs_le.mpr ⟨low, high⟩
  · rw [nonneg_iff_value finite_x] at nonneg
    exact rounded.nonneg (mul_nonneg nonneg lower)
  · rw [nonpos_iff_value finite_x] at nonpos
    exact rounded.nonpos (mul_nonpos_of_nonpos_of_nonneg nonpos lower)

/-- Between numbers that are not negative, shrinking is the order. -/
theorem le {y : Binary32} (shrunk : y.Shrunk x) (finite_y : y.IsFinite) (finite_x : x.IsFinite)
    (nonneg : 0 ≤ x) : y ≤ x := by
  have magnitude := shrunk.magnitude
  rw [le_iff_value (isFinite_abs.mpr finite_y) (isFinite_abs.mpr finite_x), value_abs, value_abs]
    at magnitude
  rw [nonneg_iff_value finite_x] at nonneg
  rw [le_iff_value finite_y finite_x]
  rw [abs_of_nonneg nonneg] at magnitude
  exact (le_abs_self _).trans magnitude

end Binary32.Shrunk

/-- A command that asks for no more than another one does. -/
structure Command.Weaker (weak c : Command) : Prop where
  /-- The thrust has not grown. -/
  thrust : weak.thrust ≤ c.thrust
  /-- The roll demand has shrunk. -/
  roll : weak.roll.Shrunk c.roll
  /-- The pitch demand has shrunk. -/
  pitch : weak.pitch.Shrunk c.pitch
  /-- The yaw demand has shrunk. -/
  yaw : weak.yaw.Shrunk c.yaw

theorem Command.Within.weaker {c : Command} {b : ℤ} (within : c.Within b) : c.Weaker c where
  thrust := (le_iff_value within.thrust.finite within.thrust.finite).mpr le_rfl
  roll := .refl within.roll.finite
  pitch := .refl within.pitch.finite
  yaw := .refl within.yaw.finite

theorem Normalization.weight_between {percent : UInt8}
    (accepted : (staticWeight percent).validate = .ok ()) :
    (ofNat percent.toNat / 100).Between 0 1 :=
  percentage_between (k := 1) (weight_le accepted) (by norm_num)

/-- No accepted policy strengthens a command. -/
theorem prescale_weaker {policy : Normalization} (accepted : policy.validate = .ok ())
    {c : Command} (inBounds : c.InBounds) : (prescale policy c).Weaker c := by
  have within := inBounds.within
  cases policy with
  | clampAndShift => exact within.weaker
  | headroom =>
    simp only [prescale]
    split
    · rename_i shrinks
      have scale := headroom_scale_between inBounds shrinks.1 shrinks.2
      exact ⟨within.weaker.thrust, .mul within.roll.finite scale, .mul within.pitch.finite scale,
        .mul within.yaw.finite scale⟩
    · exact within.weaker
  | staticWeight percent =>
    have weight := Normalization.weight_between accepted
    have rest : (1 - ofNat percent.toNat / 100).Between 0 1 :=
      (one_between.sub weight (by norm_num)).mono (by norm_num) (by norm_num)
    have shaped := prescale_within_one inBounds accepted
    have thrust : (c.thrust * (ofNat percent.toNat / 100)).Shrunk c.thrust :=
      .mul within.thrust.finite weight
    exact ⟨thrust.le shaped.thrust.finite within.thrust.finite inBounds.1.1,
      .mul within.roll.finite rest, .mul within.pitch.finite rest, .mul within.yaw.finite rest⟩

/-- The thrust only gives way to a weight. -/
theorem prescale_thrust {policy : Normalization} (unweighted : ∀ p, policy ≠ .staticWeight p)
    (c : Command) : (prescale policy c).thrust = c.thrust := by
  cases policy with
  | clampAndShift => rfl
  | headroom =>
    simp only [prescale]
    split <;> rfl
  | staticWeight percent => exact absurd rfl (unweighted percent)

/-- Shaped commands stay in bounds. -/
theorem prescale_inBounds {policy : Normalization} (accepted : policy.validate = .ok ())
    {c : Command} (inBounds : c.InBounds) : (prescale policy c).InBounds := by
  have within := prescale_within_one inBounds accepted
  have units {x : Binary32} (between : x.Between (-1) 1) : -1 ≤ x ∧ x ≤ 1 :=
    ⟨le_of_between one_between.neg between le_rfl, le_of_between between one_between le_rfl⟩
  refine ⟨⟨?_, (units within.thrust).2⟩, units within.roll, units within.pitch, units within.yaw⟩
  cases policy with
  | clampAndShift => exact inBounds.1.1
  | headroom =>
    rw [prescale_thrust (by simp)]
    exact inBounds.1.1
  | staticWeight percent =>
    have weight := Normalization.weight_between accepted
    have thrust := (thrust_between inBounds).mul_of_nonneg weight (by norm_num)
    exact le_of_between zero_between thrust le_rfl

/-! ## Demands within the headroom -/

/-- A motor with a share between -1 and 1 in every attitude axis and a full share of the thrust. -/
def Factors.Lifts (f : Factors) : Prop := f.InUnits ∧ f.throttle = 1

theorem Geometry.lifts_of_mem_table (g : Geometry) : ∀ row ∈ g.table, row.Lifts := by
  intro row mem
  refine ⟨g.inUnits_of_mem_table row mem, ?_⟩
  have full : ∀ row ∈ g.table, row.throttle = 1 := by
    cases g <;> simp [Geometry.table, Geometry.arms]
  exact full row mem

namespace ExactCommand

/-- The demand on a motor differs from the thrust by no more than the attitude demand. -/
theorem demand_close {f : Factors} (lifts : f.Lifts) (c : ExactCommand) :
    |c.demand f - c.thrust| ≤ c.attitude := by
  obtain ⟨⟨roll, pitch, yaw, -⟩, throttle⟩ := lifts
  have part {axis : ℚ} {share : Binary32} (bounds : -1 ≤ share ∧ share ≤ 1) :
      |axis * share.value| ≤ |axis| := by
    rw [abs_mul]
    apply mul_le_of_le_one_right (abs_nonneg _)
    exact_mod_cast (between_units bounds).abs_value_le
  calc
    |c.demand f - c.thrust| =
        |c.roll * f.roll.value + c.pitch * f.pitch.value + c.yaw * f.yaw.value| := by
      rw [demand, throttle, value_one]
      congr 1
      ring
    _ ≤ |c.roll * f.roll.value| + |c.pitch * f.pitch.value| + |c.yaw * f.yaw.value| :=
      abs_add_three _ _ _
    _ ≤ c.attitude := add_le_add (add_le_add (part roll) (part pitch)) (part yaw)

/-- Shaping to the headroom leaves no more attitude than there is room. -/
theorem attitude_prescale_le {c : ExactCommand} (room : 0 ≤ c.headroom) :
    (c.prescale .headroom).attitude ≤ c.headroom := by
  have share_nonneg : 0 ≤ c.fittingShare := by
    rw [fittingShare]
    split
    · exact zero_le_one
    · exact le_min zero_le_one (div_nonneg room (by unfold attitude; positivity))
  calc
    (c.prescale .headroom).attitude = c.attitude * c.fittingShare := by
      simp only [prescale, attitude, abs_mul, abs_of_nonneg share_nonneg]
      ring
    _ = min c.attitude c.headroom := c.attitude_mul_fittingShare room
    _ ≤ c.headroom := min_le_right _ _

/-- After shaping to the headroom, demands fit the unit interval exactly. -/
theorem demand_prescale_mem {f : Factors} (lifts : f.Lifts) {c : ExactCommand}
    (room : 0 ≤ c.headroom) :
    0 ≤ (c.prescale .headroom).demand f ∧ (c.prescale .headroom).demand f ≤ 1 := by
  have close := (demand_close lifts (c.prescale .headroom)).trans (attitude_prescale_le room)
  obtain ⟨lower, upper⟩ := abs_le.mp close
  have below : c.headroom ≤ c.thrust := min_le_left _ _
  have above : c.headroom ≤ 1 - c.thrust := min_le_right _ _
  have thrust : (c.prescale .headroom).thrust = c.thrust := rfl
  rw [thrust] at lower upper
  constructor <;> linarith

end ExactCommand

/-- The demands of a command that was shaped to the headroom need no clamp but for rounding. -/
theorem mix_headroom_mem {table : List Factors} (lifts : ∀ row ∈ table, row.Lifts) {c : Command}
    (inBounds : c.InBounds) :
    ∀ v ∈ mix table (prescale .headroom c),
      v.IsFinite ∧ -(1 / 100000) ≤ v.value ∧ v.value ≤ 1 + 1 / 100000 := by
  intro v mem
  obtain ⟨row, row_mem, rfl⟩ := List.mem_map.mp mem
  have row_lifts := lifts row (List.mem_of_mem_take row_mem)
  obtain ⟨lower, upper⟩ :=
    ExactCommand.demand_prescale_mem row_lifts inBounds.exact_headroom_nonneg
  have near := (Factors.demand_near row_lifts.1 (prescale_within_one inBounds rfl)
    (prescale_near_headroom inBounds)).mono
      (show 4 * (7 / 2 ^ 24) + 7 / 2 ^ 24 ≤ (1 / 100000 : ℚ) by norm_num)
  exact ⟨near.finite, by linarith [near.lower], by linarith [near.upper]⟩

/-- Shaping by an accepted policy yields a weaker command in bounds, with the same thrust unless
thrust is weighted; and what the headroom policy shapes fits the unit interval on every motor that
takes the thrust in full, so on all motors of every geometry. -/
theorem prescale_only_shrinks {policy : Normalization} (accepted : policy.validate = .ok ())
    {c : Command} (inBounds : c.InBounds) :
    (prescale policy c).InBounds ∧ (prescale policy c).Weaker c ∧
      ((∀ percent, policy ≠ .staticWeight percent) → (prescale policy c).thrust = c.thrust) ∧
        (∀ g : Geometry, ∀ row ∈ g.table, row.Lifts) ∧
          ∀ table : List Factors, (∀ row ∈ table, row.Lifts) →
            ∀ v ∈ mix table (prescale .headroom c),
              v.IsFinite ∧ -(1 / 100000) ≤ v.value ∧ v.value ≤ 1 + 1 / 100000 :=
  ⟨prescale_inBounds accepted inBounds, prescale_weaker accepted inBounds,
    fun unweighted => prescale_thrust unweighted c, Geometry.lifts_of_mem_table,
    fun _ lifts => mix_headroom_mem lifts inBounds⟩

/-- Far more attitude than there is room for, on a motor that no geometry has. -/
theorem prescale_only_shrinks_lopsided :
    let c : Command := ⟨0.9, 1, -1, 0.5⟩
    let table : List Factors := [⟨1, -1, -0.5, 1⟩]
    Normalization.headroom.validate = .ok () ∧ c.InBounds ∧ (∀ row ∈ table, row.Lifts) ∧
      (prescale .headroom c).InBounds ∧ (prescale .headroom c).Weaker c ∧
        (prescale .headroom c).thrust = c.thrust ∧
          ∀ v ∈ mix table (prescale .headroom c),
            v.IsFinite ∧ -(1 / 100000) ≤ v.value ∧ v.value ≤ 1 + 1 / 100000 := by
  intro c table
  have accepted : Normalization.headroom.validate = .ok () := rfl
  have inBounds : c.InBounds := by decide
  have lifts : ∀ row ∈ table, row.Lifts := List.forall_mem_singleton.mpr ⟨by decide, rfl⟩
  obtain ⟨shaped, weaker, thrust, -, demands⟩ := prescale_only_shrinks accepted inBounds
  exact ⟨accepted, inBounds, lifts, shaped, weaker, thrust (by simp), demands table lifts⟩

end Multirotor
