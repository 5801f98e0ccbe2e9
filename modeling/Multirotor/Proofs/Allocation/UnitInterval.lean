import Multirotor.Mixer
import Multirotor.Proofs.Allocation.FiniteDemands

/-!
# Allocated speeds lie in the unit interval

The clamp at the end of the allocation lets NaN through, so the range of the speeds rests on the
steps before it: they only ever meet finite numbers.  Every axis stays within 3 after prescaling and
every demand within 12, and finite demands are normalized into the unit interval.  An ESC therefore
never finds an allocated speed out of range.
-/

namespace Multirotor

open Binary32

/-- Every share lies between -1 and 1; in particular none is NaN. -/
def Factors.InUnits (f : Factors) : Prop :=
  (-1 ≤ f.roll ∧ f.roll ≤ 1) ∧ (-1 ≤ f.pitch ∧ f.pitch ≤ 1) ∧ (-1 ≤ f.yaw ∧ f.yaw ≤ 1) ∧
    (-1 ≤ f.throttle ∧ f.throttle ≤ 1)

instance (f : Factors) : Decidable f.InUnits := by
  unfold Factors.InUnits
  infer_instance

theorem Geometry.inUnits_of_mem_table (g : Geometry) : ∀ row ∈ g.table, row.InUnits := by
  cases g <;> decide

/-- The values of all axes lie between `-bound` and `bound`. -/
structure Command.Within (c : Command) (bound : ℤ) : Prop where
  /-- The bound on thrust. -/
  thrust : c.thrust.Between (-bound) bound
  /-- The bound on roll. -/
  roll : c.roll.Between (-bound) bound
  /-- The bound on pitch. -/
  pitch : c.pitch.Between (-bound) bound
  /-- The bound on yaw. -/
  yaw : c.yaw.Between (-bound) bound

theorem Command.Within.mono {c : Command} {a b : ℤ} (within : c.Within a) (le : a ≤ b) :
    c.Within b where
  thrust := within.thrust.mono (neg_le_neg le) le
  roll := within.roll.mono (neg_le_neg le) le
  pitch := within.pitch.mono (neg_le_neg le) le
  yaw := within.yaw.mono (neg_le_neg le) le

theorem between_units {x : Binary32} (bounds : -1 ≤ x ∧ x ≤ 1) : x.Between (-1) 1 :=
  between_of_le one_between.neg one_between bounds.1 bounds.2

theorem thrust_between {c : Command} (inBounds : c.InBounds) : c.thrust.Between 0 1 :=
  between_of_le zero_between one_between inBounds.1.1 inBounds.1.2

theorem Command.InBounds.within {c : Command} (inBounds : c.InBounds) : c.Within 1 where
  thrust := (thrust_between inBounds).mono (by norm_num) le_rfl
  roll := between_units inBounds.2.1
  pitch := between_units inBounds.2.2.1
  yaw := between_units inBounds.2.2.2

/-! ## Prescaling -/

theorem headroom_between {c : Command} (inBounds : c.InBounds) :
    (c.thrust.least (1 - c.thrust)).Between 0 1 := by
  have thrust := thrust_between inBounds
  rw [least]
  split
  · exact thrust
  · exact one_between.sub thrust (by norm_num)

theorem attitude_between {c : Command} (within : c.Within 1) :
    (c.roll.abs + c.pitch.abs + c.yaw.abs).Between 0 3 :=
  (within.roll.abs.add within.pitch.abs (by norm_num)).add within.yaw.abs (by norm_num)

/-- The share of the attitude demand that fits into the headroom, where not all of it does. -/
theorem headroom_scale_between {c : Command} (inBounds : c.InBounds)
    (tight : c.thrust.least (1 - c.thrust) < c.roll.abs + c.pitch.abs + c.yaw.abs)
    (positive : 0 < c.roll.abs + c.pitch.abs + c.yaw.abs) :
    (c.thrust.least (1 - c.thrust) / (c.roll.abs + c.pitch.abs + c.yaw.abs)).Between 0 1 := by
  have headroom := headroom_between inBounds
  have demand := attitude_between inBounds.within
  rw [lt_iff_value headroom.finite demand.finite] at tight
  rw [pos_iff_value demand.finite] at positive
  exact Between.div_of_le headroom.finite demand.finite headroom.value_nonneg
    positive tight.le

/-- A weight of up to `k` times a hundred percent prescales no axis beyond `k`. -/
private theorem prescale_within_of {c : Command} (inBounds : c.InBounds) {policy : Normalization}
    {k : Nat} (range : 1 ≤ k ∧ k ≤ 3)
    (sparing : ∀ percent, policy = .staticWeight percent → percent.toNat ≤ 100 * k) :
    (prescale policy c).Within k := by
  have within := inBounds.within
  cases policy with
  | clampAndShift => exact within.mono (by omega)
  | headroom =>
    simp only [prescale]
    split
    · rename_i shrinks
      have scale := (headroom_scale_between inBounds shrinks.1 shrinks.2).mono
        (show (-1 : ℤ) ≤ 0 by norm_num) le_rfl
      apply Command.Within.mono (a := 1) _ (by omega)
      exact ⟨within.thrust, within.roll.mul scale (by norm_num),
        within.pitch.mul scale (by norm_num), within.yaw.mul scale (by norm_num)⟩
    · exact within.mono (by omega)
  | staticWeight percent =>
    have weight : (ofNat percent.toNat / 100).Between 0 k :=
      percentage_between (sparing percent rfl) (by omega)
    have rest : (1 - ofNat percent.toNat / 100).Between (-k) k :=
      (one_between.sub weight (by omega)).mono (by omega) (by omega)
    have weight := weight.mono (show (-k : ℤ) ≤ 0 by omega) le_rfl
    have small : 1 * (k : ℤ) ≤ 2 ^ 24 := by omega
    have unit : 1 * (k : ℤ) = k := one_mul _
    have thrust := within.thrust.mul weight small
    have roll := within.roll.mul rest small
    have pitch := within.pitch.mul rest small
    have yaw := within.yaw.mul rest small
    rw [unit] at thrust roll pitch yaw
    exact ⟨thrust, roll, pitch, yaw⟩

/-- No policy prescales an axis beyond 3, whatever its weight. -/
theorem prescale_within {c : Command} (inBounds : c.InBounds) (policy : Normalization) :
    (prescale policy c).Within 3 :=
  prescale_within_of (k := 3) inBounds ⟨by norm_num, le_rfl⟩ fun percent _ => by
    have := percent.toNat_lt
    omega

theorem Normalization.weight_le {percent : UInt8}
    (accepted : (staticWeight percent).validate = .ok ()) : percent.toNat ≤ 100 := by
  rw [validate] at accepted
  split at accepted
  · cases accepted
  · rename_i sensible
    rw [UInt8.lt_iff_toNat_lt] at sensible
    exact not_lt.mp sensible

/-- An accepted policy prescales no axis beyond 1. -/
theorem prescale_within_one {c : Command} (inBounds : c.InBounds) {policy : Normalization}
    (accepted : policy.validate = .ok ()) : (prescale policy c).Within 1 :=
  prescale_within_of (k := 1) inBounds ⟨le_rfl, by norm_num⟩ fun _ same =>
    Normalization.weight_le (same ▸ accepted)

/-! ## Mixing and normalizing -/

theorem Factors.demand_between {f : Factors} {c : Command} {b : ℤ} (inUnits : f.InUnits)
    (within : c.Within b) (small : 4 * b ≤ 2 ^ 24) : (f.demand c).Between (-(4 * b)) (4 * b) := by
  obtain ⟨roll, pitch, yaw, throttle⟩ := inUnits
  have thrust_part := within.thrust.mul (between_units throttle) (by omega)
  have roll_part := within.roll.mul (between_units roll) (by omega)
  have pitch_part := within.pitch.mul (between_units pitch) (by omega)
  have yaw_part := within.yaw.mul (between_units yaw) (by omega)
  have sum := ((thrust_part.add roll_part (by omega)).add pitch_part (by omega)).add yaw_part
    (by omega)
  exact sum.mono (by omega) (by omega)

theorem normalize_mem {values : List Binary32} (policy : Normalization)
    (finite_values : ∀ v ∈ values, v.IsFinite) :
    ∀ v ∈ normalize policy values, 0 ≤ v ∧ v ≤ 1 := by
  have clamped : ∀ v ∈ clampOutputs values, 0 ≤ v ∧ v ≤ 1 :=
    List.forall_mem_map.mpr fun v mem => clampUnit_mem (finite_values v mem).ne_nan
  cases policy with
  | clampAndShift => exact clampAndShift_mem finite_values
  | headroom => exact clamped
  | staticWeight => exact clamped

theorem length_normalize (policy : Normalization) (values : List Binary32) :
    (normalize policy values).length = values.length := by
  rw [normalize_eq_map, List.length_map]

theorem length_allocate (table : List Factors) (policy : Normalization) (c : Command) :
    (allocate table policy c).length = min table.length 6 := by
  rw [allocate, length_normalize, mix, List.length_map, List.length_take, maxMotors, Nat.min_comm]

/-- A geometry gets one speed for each of its motors. -/
theorem Geometry.length_allocate (g : Geometry) (policy : Normalization) (c : Command) :
    (allocate g.table policy c).length = g.motorCount := by
  rw [Multirotor.length_allocate, g.length_table]
  exact min_eq_left g.motorCount_le

theorem allocate_mem {table : List Factors} {c : Command}
    (inUnits : ∀ row ∈ table, row.InUnits) (inBounds : c.InBounds) (policy : Normalization) :
    ∀ speed ∈ allocate table policy c, 0 ≤ speed ∧ speed ≤ 1 := by
  apply normalize_mem
  intro v mem
  obtain ⟨row, row_mem, rfl⟩ := List.mem_map.mp mem
  exact (Factors.demand_between (inUnits row (List.mem_of_mem_take row_mem))
    (prescale_within inBounds policy) (by norm_num)).finite

/-! ## Executing commands -/

/-- An ESC finds no speed of the unit interval out of range. -/
theorem Esc.drive_ne_outOfRange (e : Esc) {speed : Binary32} (bench : Bench)
    (legal : 0 ≤ speed ∧ speed ≤ 1) : (e.drive speed bench).1 ≠ .error .outOfRangeCommand := by
  rw [Esc.drive]
  split
  · simp
  · rw [if_pos legal]
    split
    · simp
    · rename_i reason _ _
      cases reason <;> simp [EscError.ofWrite]

theorem Mixer.driveFrom_ne_outOfRange {speeds : List Binary32}
    (legal : ∀ speed ∈ speeds, 0 ≤ speed ∧ speed ≤ 1) (motors : List Esc) (index : Nat)
    (outputs : List Binary32) (bench : Bench) (motor : Nat) :
    (driveFrom index motors speeds outputs bench).1 ≠
      .error (.actuatorFailure motor .outOfRangeCommand) := by
  induction motors generalizing index speeds outputs bench with
  | nil => simp [driveFrom]
  | cons first motors induction =>
    rcases speeds with _ | ⟨speed, speeds⟩
    · simp [driveFrom]
    rcases outputs with _ | ⟨output, outputs⟩
    · simp [driveFrom]
    have driven := first.drive_ne_outOfRange bench (legal speed List.mem_cons_self)
    rw [driveFrom]
    rcases result : first.drive speed bench with ⟨source | _, after⟩
    · rw [result] at driven
      simpa using fun _ : index = motor => fun same : source = _ => driven (by rw [same])
    · exact induction (fun v mem => legal v (List.mem_cons_of_mem _ mem)) (index + 1) outputs after

theorem Mixer.checkComplete_eq_error {m : Mixer} {e : MixerError}
    (refused : m.checkComplete = .error e) :
    e = .notInitialized ∨ e = .countMismatch m.expectedCount m.motors.length := by
  rw [Mixer.checkComplete] at refused
  split at refused
  · exact .inl (Except.error.inj refused).symm
  · split at refused
    · cases refused
    · exact .inr (Except.error.inj refused).symm

/-- The allocation gives one legal speed for each row that it uses, whatever the command within
bounds and the weight, and so no ESC refuses a speed as out of range. -/
theorem allocate_legal :
    (∀ (table : List Factors) (policy : Normalization) (c : Command),
      (∀ row ∈ table, row.InUnits) → c.InBounds →
        (allocate table policy c).length = min table.length 6 ∧
          ∀ speed ∈ allocate table policy c, speed ≠ nan ∧ 0 ≤ speed ∧ speed ≤ 1) ∧
      (∀ g : Geometry, ∀ row ∈ g.table, row.InUnits) ∧
      ∀ (m : Mixer) (c : Command) (bench : Bench) (motor : Nat),
        (m.execute c bench).1 ≠ .error (.actuatorFailure motor .outOfRangeCommand) := by
  refine ⟨fun table policy c inUnits inBounds => ⟨length_allocate table policy c, ?_⟩,
    Geometry.inUnits_of_mem_table, fun m c bench motor => ?_⟩
  · intro speed mem
    have legal := allocate_mem inUnits inBounds policy speed mem
    exact ⟨ne_nan_of_le legal.1, legal⟩
  · rw [Mixer.execute]
    rcases checked : m.checkComplete with e | _
    · rcases Mixer.checkComplete_eq_error checked with rfl | rfl <;> simp
    · simp only
      split
      · rename_i inBounds
        split
        · simp
        · exact Mixer.driveFrom_ne_outOfRange
            (allocate_mem m.geometry.inUnits_of_mem_table inBounds m.policy) _ _ _ _ _
      · simp

/-- Seven equal rows at the ends of their ranges, a full command and a weight far above a hundred
percent. -/
theorem allocate_legal_overweight :
    let table := List.replicate 7 (⟨1, -1, 1, -1⟩ : Factors)
    let c : Command := ⟨1, -1, 1, -1⟩
    (∀ row ∈ table, row.InUnits) ∧ c.InBounds ∧
      (allocate table (.staticWeight 255) c).length = 6 ∧
        ∀ speed ∈ allocate table (.staticWeight 255) c, speed ≠ nan ∧ 0 ≤ speed ∧ speed ≤ 1 := by
  intro table c
  have inUnits : ∀ row ∈ table, row.InUnits := by decide
  have inBounds : c.InBounds := by decide
  exact ⟨inUnits, inBounds, allocate_legal.1 table (.staticWeight 255) c inUnits inBounds⟩

end Multirotor
