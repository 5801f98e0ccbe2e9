import Multirotor.Proofs.Sweep.Ramps

/-!
# Missions that sweep every axis

A whole sweep is one ramp from 0 to full scale on each axis.  A mission limits its sweep to four
times the steps asked for, while the sweep itself makes at least two steps on an axis.  So the sweep
of a mission is a whole one from two steps on; with fewer steps it ends before it comes to yaw and
thrust.
-/

namespace Multirotor

open Binary32

namespace Sweep

/-- One axis from 0 to full scale in `count` commands. -/
def ramp (count : Nat) (axis : Axis) : List Command :=
  (List.range count).map fun k => .single axis (rampDemand count k)

/-- The ramps of all axes in their order. -/
def whole (count : Nat) : List Command :=
  ramp count .roll ++ ramp count .pitch ++ ramp count .yaw ++ ramp count .thrust

section

variable {count : Nat} (two_le : 2 ≤ count)
include two_le

theorem head?_ramp (axis : Axis) : (ramp count axis).head? = some (.single axis 0) := by
  rw [ramp, List.head?_map, List.head?_range, if_neg (by omega), Option.map_some,
    rampDemand_first two_le (Nat.zero_mod count)]

theorem getLast?_ramp (axis : Axis) : (ramp count axis).getLast? = some (.single axis 1) := by
  rw [ramp, List.getLast?_map, List.getLast?_range, if_neg (by omega), Option.map_some,
    rampDemand_last two_le (Nat.mod_eq_of_lt (by omega))]

/-- The commands on an axis are numbered in a row. -/
theorem ramp_ofNumber (n : Nat) :
    ramp count (.ofNumber n) =
      (List.range count).map fun k => rampCommand count (n * count + k) := by
  rw [ramp]
  apply List.map_congr_left
  intro k mem
  have inside : k < count := List.mem_range.mp mem
  have axis : (n * count + k) / count = n := by
    rw [Nat.mul_comm, Nat.mul_add_div (by omega), Nat.div_eq_of_lt inside, Nat.add_zero]
  have position : (n * count + k) % count = k % count := Nat.mul_add_mod_self_right n count k
  rw [rampCommand, axis, rampDemand, rampDemand, position]

/-- The first ramps together. -/
theorem map_rampCommand (n : Nat) :
    (List.range (n * count)).map (rampCommand count) =
      (List.range n).flatMap fun axis => ramp count (.ofNumber axis) := by
  induction n with
  | zero => rw [Nat.zero_mul]; rfl
  | succ n induction =>
    rw [Nat.succ_mul, List.range_add, List.map_append, induction, List.map_map, List.range_succ,
      List.flatMap_append, List.flatMap_singleton, ramp_ofNumber two_le]
    rfl

theorem whole_eq : whole count = (List.range (4 * count)).map (rampCommand count) := by
  rw [map_rampCommand two_le]
  simp [whole, List.range_succ, Axis.ofNumber]

end

end Sweep

namespace Mission

open Sweep

/-- The commands that the sweep of a mission makes on each axis. -/
def stepsPerAxis (m : Mission) : Nat := perAxis m.sweepSteps

/-- The source of a mission sends one whole sweep and then asks for a kill. -/
structure SweepsWhole (m : Mission) : Prop where
  /-- It publishes the ramps of all axes in their order before the kill. -/
  published : ∀ rounds, publicationsOf (m.sweep.transmission rounds).flatten =
    (broadcast (whole m.stepsPerAxis)).take rounds
  /-- Its last command is full thrust, with which the last ramp ends. -/
  ends : (m.sweep.after (4 * m.stepsPerAxis - 1)).next? =
    some (.single .thrust 1, m.sweep.after (4 * m.stepsPerAxis))
  /-- It makes no command after it. -/
  exhausted : (m.sweep.after (4 * m.stepsPerAxis)).next? = none

theorem two_le_stepsPerAxis (m : Mission) : 2 ≤ m.stepsPerAxis := two_le_perAxis _

/-- A mission publishes as much of a whole sweep as its limit lets through. -/
theorem publicationsOf_sweep (m : Mission) (rounds : Nat) :
    publicationsOf (m.sweep.transmission rounds).flatten =
      (broadcast ((whole m.stepsPerAxis).take m.sweepLength)).take rounds := by
  have place : m.sweep.At m.stepsPerAxis 0 := at_ofSteps _ _
  have within : m.sweepLength ≤ 4 * m.stepsPerAxis := by
    rw [sweepLength, stepsPerAxis, perAxis]
    omega
  rw [place.publications m.two_le_stepsPerAxis rfl, whole_eq m.two_le_stepsPerAxis, ← List.map_take,
    List.take_range, Nat.min_eq_left within]

theorem sweepsWhole_of_two_le {m : Mission} (two_le : 2 ≤ m.sweepSteps.toNat) :
    m.SweepsWhole := by
  have steps : m.stepsPerAxis = m.sweepSteps.toNat := max_eq_left two_le
  have length : m.sweepLength = 4 * m.stepsPerAxis := by rw [steps, sweepLength, Nat.mul_comm]
  have place : m.sweep.At m.stepsPerAxis 0 := at_ofSteps _ _
  have limit : 4 * m.stepsPerAxis ∈ m.sweep.remaining? := congrArg some length
  have two_le := m.two_le_stepsPerAxis
  refine ⟨fun rounds => ?_, ?_, next?_after_of_limit limit⟩
  · rw [place.publications two_le limit, whole_eq two_le]
  · have inside : ∀ n ∈ m.sweep.remaining?, 4 * m.stepsPerAxis - 1 < n := by
      intro n mem
      obtain rfl := Option.mem_unique limit mem
      omega
    -- the command before the limit is the last one of the last ramp
    obtain ⟨axis, position⟩ : (4 * m.stepsPerAxis - 1) / m.stepsPerAxis = 3 ∧
        (4 * m.stepsPerAxis - 1) % m.stepsPerAxis = m.stepsPerAxis - 1 := by
      rw [Nat.div_mod_unique (by omega)]
      omega
    rw [place.next?_after two_le inside, Nat.sub_add_cancel (by omega), rampCommand, axis,
      rampDemand_last two_le position]
    rfl

/-- The source of a mission sends one whole sweep exactly if at least two steps are asked for, and
otherwise the part of it that the limit lets through.  Each ramp of a whole sweep goes from 0 to
full scale. -/
theorem sweepsWhole_iff (m : Mission) :
    (m.SweepsWhole ↔ 2 ≤ m.sweepSteps.toNat) ∧
      (∀ rounds, publicationsOf (m.sweep.transmission rounds).flatten =
        (broadcast ((whole m.stepsPerAxis).take m.sweepLength)).take rounds) ∧
      ∀ axis, (ramp m.stepsPerAxis axis).head? = some (.single axis 0) ∧
        (ramp m.stepsPerAxis axis).getLast? = some (.single axis 1) := by
  have two_le := m.two_le_stepsPerAxis
  refine ⟨⟨fun sweeps => ?_, sweepsWhole_of_two_le⟩, m.publicationsOf_sweep,
    fun axis => ⟨head?_ramp two_le axis, getLast?_ramp two_le axis⟩⟩
  -- a whole sweep has at least eight commands
  have same := (m.publicationsOf_sweep 9).symm.trans (sweeps.published 9)
  have lengths := congrArg List.length same
  rw [List.length_take, List.length_take, length_broadcast, length_broadcast, List.length_take,
    whole_eq two_le, List.length_map, List.length_range, sweepLength] at lengths
  omega

/-- Asked for one step, a mission leaves out yaw and thrust. -/
theorem leaves_axes_out : ¬ ∀ m : Mission, m.SweepsWhole := by
  intro claim
  let m : Mission := { settings := {}, sweepSteps := 1, maxCycles? := none }
  have published := (claim m).published 9
  have few : (publicationsOf (m.sweep.transmission 9).flatten).length = 5 := by decide +kernel
  have many : ((broadcast (whole m.stepsPerAxis)).take 9).length = 9 := by decide +kernel
  rw [published, many] at few
  cases few

end Mission

end Multirotor
