import Multirotor.Proofs.Allocation.Leveling
import Multirotor.Proofs.Allocation.UnitInterval

/-!
# The allocation in the mirror

Seen in a mirror that exchanges left and right, an airframe rolls to the other side.  An X airframe
also turns its propellers the other way, a cross airframe keeps them.  The mirrored command makes
each motor as fast as the command made the motor in the mirror, without any tolerance: prescaling
commutes with the mirror, the motors in the mirror have the same demands in another order, and
normalizing makes nothing of the order.
-/

namespace Multirotor

open Binary32

/-- The place of a motor in the mirror. -/
def Position.mirror : Position → Position
  | frontRight => frontLeft
  | frontLeft => frontRight
  | rearRight => rearLeft
  | rearLeft => rearRight
  | right => left
  | left => right
  | front => front
  | rear => rear

namespace Geometry

/-- A yaw demand or a yaw share in the mirror. -/
def mirrorYaw (g : Geometry) (yaw : Binary32) : Binary32 :=
  match g with
  | quadX | hexX => -yaw
  | quadCross | hexCross => yaw

/-- A command in the mirror. -/
def mirror (g : Geometry) (c : Command) : Command :=
  { c with roll := -c.roll, yaw := g.mirrorYaw c.yaw }

/-- The speed of the motor at a position, `none` where no motor sits. -/
def speedAt (g : Geometry) (policy : Normalization) (c : Command) (p : Position) :
    Option Binary32 :=
  (g.positions.zip (allocate g.table policy c)).lookup p

deriving instance DecidableEq for Arm

/-- The arm in the mirror. -/
def opposite (g : Geometry) (arm : Arm) : Arm :=
  (g.arms.find? fun other => other.position = arm.position.mirror).getD arm

/-- The mirror only exchanges arms. -/
theorem map_opposite_perm (g : Geometry) : (g.arms.map g.opposite).Perm g.arms := by
  cases g <;> decide

/-- The arm in the mirror has the same shares of thrust and pitch, and mirrored ones of roll and
yaw. -/
theorem opposite_eq {g : Geometry} {arm : Arm} (mem : arm ∈ g.arms) :
    (g.opposite arm).position = arm.position.mirror ∧
      (-arm.factors.roll).Alike (g.opposite arm).factors.roll ∧
      (g.opposite arm).factors.pitch = arm.factors.pitch ∧
      (g.opposite arm).factors.yaw = g.mirrorYaw arm.factors.yaw ∧
      (g.opposite arm).factors.throttle = arm.factors.throttle := by
  revert arm
  cases g <;> decide

/-! ## Prescaling and mixing -/

theorem mirrorYaw_mul (g : Geometry) (yaw factor : Binary32) :
    g.mirrorYaw yaw * factor = g.mirrorYaw (yaw * factor) := by
  cases g
  case quadX | hexX => exact Binary32.neg_mul yaw factor
  case quadCross | hexCross => rfl

theorem mirrorYaw_mul_comm (g : Geometry) (yaw factor : Binary32) :
    g.mirrorYaw yaw * factor = yaw * g.mirrorYaw factor := by
  cases g
  case quadX | hexX => exact neg_mul_comm yaw factor
  case quadCross | hexCross => rfl

theorem abs_mirrorYaw (g : Geometry) (yaw : Binary32) : (g.mirrorYaw yaw).abs = yaw.abs := by
  cases g
  case quadX | hexX => exact Binary32.abs_neg yaw
  case quadCross | hexCross => rfl

/-- It does not matter whether a command is prescaled before or after it is mirrored. -/
theorem prescale_mirror (g : Geometry) (policy : Normalization) (c : Command) :
    prescale policy (g.mirror c) = g.mirror (prescale policy c) := by
  cases policy with
  | clampAndShift => rfl
  | headroom =>
    simp only [prescale, mirror, Binary32.abs_neg, abs_mirrorYaw]
    split
    · simp only [Binary32.neg_mul, mirrorYaw_mul]
    · rfl
  | staticWeight percent =>
    simp only [prescale, mirror, Binary32.neg_mul, mirrorYaw_mul]

/-- The mirrored command asks of each motor what the command asks of the motor in the mirror. -/
theorem demand_mirror {g : Geometry} {arm : Arm} (mem : arm ∈ g.arms) (c : Command) :
    (arm.factors.demand (g.mirror c)).Alike ((g.opposite arm).factors.demand c) := by
  obtain ⟨-, roll, pitch, yaw, throttle⟩ := opposite_eq mem
  rw [Factors.demand, Factors.demand, pitch, yaw, throttle]
  have roll_part : (-c.roll * arm.factors.roll).Alike (c.roll * (g.opposite arm).factors.roll) := by
    rw [neg_mul_comm]
    exact (Alike.refl _).mul roll
  have yaw_part : g.mirrorYaw c.yaw * arm.factors.yaw = c.yaw * g.mirrorYaw arm.factors.yaw :=
    g.mirrorYaw_mul_comm _ _
  rw [← yaw_part]
  exact (((Alike.refl _).add roll_part).add (.refl _)).add (.refl _)

theorem mix_table (g : Geometry) (c : Command) :
    mix g.table c = g.arms.map fun arm => arm.factors.demand c := by
  have all : g.table.take maxMotors = g.table :=
    List.take_of_length_le (g.length_table.trans_le g.motorCount_le)
  rw [mix, all, table, List.map_map]
  rfl

/-- The demands of the mirrored command are those of the command in another order. -/
theorem mix_mirror_perm (g : Geometry) (c : Command) :
    ((mix g.table (g.mirror c)).map place?).Perm ((mix g.table c).map place?) := by
  rw [mix_table, mix_table, List.map_map, List.map_map]
  have mirrored : g.arms.map (place? ∘ fun arm => arm.factors.demand (g.mirror c)) =
      (g.arms.map g.opposite).map (place? ∘ fun arm => arm.factors.demand c) := by
    rw [List.map_map]
    exact List.map_congr_left fun arm mem => demand_mirror mem c
  rw [mirrored]
  exact g.map_opposite_perm.map _

/-! ## Speeds by position -/

private theorem lookup_map {α β γ : Type} [BEq β] [LawfulBEq β] {key : α → β} (value : α → γ)
    {entries : List α} (distinct : (entries.map key).Nodup) {a : α} (mem : a ∈ entries) :
    (entries.map fun entry => (key entry, value entry)).lookup (key a) = some (value a) := by
  induction entries with
  | nil => cases mem
  | cons first entries induction =>
    obtain ⟨fresh, distinct⟩ := List.nodup_cons.mp distinct
    rcases List.mem_cons.mp mem with rfl | later
    · simp
    · have other : (key a == key first) = false := by
        apply beq_false_of_ne
        intro same
        exact fresh (same ▸ List.mem_map_of_mem later)
      rw [List.map_cons, List.lookup_cons, other]
      exact induction distinct later

/-- The motor on an arm gets the speed that the policy makes of its demand. -/
theorem speedAt_position {g : Geometry} {arm : Arm} (mem : arm ∈ g.arms) (policy : Normalization)
    (c : Command) :
    let shaped := prescale policy c
    g.speedAt policy c arm.position =
      some (policy.level (mix g.table shaped) (arm.factors.demand shaped)) := by
  intro shaped
  have distinct : (g.arms.map Arm.position).Nodup := by
    cases g <;> decide
  rw [speedAt, allocate, normalize_eq_map, mix_table, positions, List.map_map, List.zip_map',
    lookup_map _ distinct mem]
  rfl

theorem speedAt_mem {g : Geometry} {policy : Normalization} {c : Command} {p : Position}
    {speed : Binary32} (found : g.speedAt policy c p = some speed) :
    speed ∈ allocate g.table policy c := by
  obtain ⟨before, after, split, -⟩ := List.lookup_eq_some_iff.mp found
  have mem : (p, speed) ∈ g.positions.zip (allocate g.table policy c) := by simp [split]
  exact (List.of_mem_zip mem).2

/-- Under the mirrored command each motor is as fast as the motor in the mirror is under the
command. -/
theorem speedAt_mirror (g : Geometry) (policy : Normalization) {c : Command}
    (inBounds : c.InBounds) {p : Position} (mem : p ∈ g.positions) :
    ∃ x y, g.speedAt policy (g.mirror c) p = some x ∧ g.speedAt policy c p.mirror = some y ∧
      x ≤ y ∧ y ≤ x := by
  obtain ⟨arm, arm_mem, rfl⟩ := List.mem_map.mp mem
  have opposite_mem : g.opposite arm ∈ g.arms :=
    g.map_opposite_perm.subset (List.mem_map_of_mem arm_mem)
  have speed := speedAt_position arm_mem policy (g.mirror c)
  have opposite_speed := speedAt_position opposite_mem policy c
  rw [prescale_mirror] at speed
  rw [(opposite_eq arm_mem).1] at opposite_speed
  have legal := allocate_mem g.inUnits_of_mem_table inBounds policy _
    (speedAt_mem opposite_speed)
  have alike := policy.level_alike (g.mix_mirror_perm (prescale policy c))
    (demand_mirror arm_mem (prescale policy c))
  exact ⟨_, _, speed, opposite_speed, alike.le_and_le (ne_nan_of_le legal.1)⟩

/-- A hexarotor whose attitude demand is shrunk to the headroom. -/
theorem speedAt_mirror_hexX :
    let c : Command := ⟨0.75, 0.5, -0.25, -1⟩
    c.InBounds ∧ .frontLeft ∈ hexX.positions ∧
      ∃ x y, hexX.speedAt .headroom (hexX.mirror c) .frontLeft = some x ∧
        hexX.speedAt .headroom c .frontRight = some y ∧ x ≤ y ∧ y ≤ x := by
  intro c
  have inBounds : c.InBounds := by decide
  have mem : Position.frontLeft ∈ hexX.positions := by decide
  exact ⟨inBounds, mem, speedAt_mirror hexX .headroom inBounds mem⟩

end Geometry

end Multirotor
