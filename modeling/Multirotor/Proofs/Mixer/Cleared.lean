import Multirotor.Proofs.Esc.PulseWidth
import Multirotor.Proofs.Mixer.Execution

/-!
# Mixers cleared for flight

A mixer is cleared on a timer if it is complete and the timer takes the arming pulse on the channel
of every motor.  The arming pulse has the period of every other pulse, so a cleared mixer can be
given any speed and can be stopped; and neither takes the clearance away.
-/

namespace Multirotor

/-- A channel that takes the arming pulse takes a stop. -/
theorem Esc.stop_accepted {e : Esc} {t : Timer} (accepted : t.refusal? e.armingWrite = none) :
    t.refusal? (.stop e.channel) = none :=
  Timer.refusal?_eq_none_of_le accepted rfl UInt32.zero_le (UInt32.le_refl _)

namespace Mixer

/-- The timer takes the arming pulses of a complete mixer. -/
structure Cleared (m : Mixer) (t : Timer) : Prop where
  /-- There is a motor in every slot. -/
  complete : m.checkComplete = .ok ()
  /-- The motors are in use and properly tuned. -/
  serviceable : m.Serviceable
  /-- No arming pulse is refused. -/
  arms : ∀ e ∈ m.motors, t.refusal? e.armingWrite = none

theorem checkComplete_withMotors {m : Mixer} {motors : List Esc} {outputs : List Binary32}
    (length : motors.length = m.motors.length) :
    { m with motors := motors, outputs := outputs }.checkComplete = m.checkComplete := by
  simp only [checkComplete, expectedCount, length]
  rfl

/-! ## Arming -/

theorem beginArmFrom_ok {motors motors' : List Esc} (serviceable : ∀ e ∈ motors, e.Serviceable)
    {index : Nat} {clock : Nat → Nat} {bench bench' : Bench}
    (begun : beginArmFrom index clock motors bench = (.ok (), motors', bench')) :
    motors'.length = motors.length ∧ bench'.timer.Agrees bench.timer ∧
      ∀ e ∈ motors', e.Serviceable ∧ bench.timer.refusal? e.armingWrite = none := by
  induction motors generalizing index bench motors' with
  | nil =>
    cases begun
    exact ⟨rfl, .refl _, fun e mem => absurd mem List.not_mem_nil⟩
  | cons motor motors induction =>
    obtain ⟨serviceable_first, serviceable⟩ := List.forall_mem_cons.mp serviceable
    rw [beginArmFrom] at begun
    rcases first : motor.beginArm (clock index) bench with ⟨source | _, motor', after⟩ <;>
      simp only [first] at begun
    · cases begun
    · obtain ⟨rfl, agrees, taken⟩ := Esc.beginArm_ok first
      rcases rest : beginArmFrom (index + 1) clock motors after with ⟨outcome, later, bench''⟩
      rw [rest] at begun
      cases begun
      obtain ⟨length, agrees_rest, arms⟩ := induction serviceable rest
      refine ⟨congrArg (· + 1) length, agrees_rest.trans agrees, ?_⟩
      refine List.forall_mem_cons.mpr ⟨⟨serviceable_first.withArming _, taken⟩, fun e mem => ?_⟩
      rw [← agrees.refusal?_eq]
      exact arms e mem

/-- Arming that succeeds clears the mixer. -/
theorem armAll_cleared {m m' : Mixer} (serviceable : m.Serviceable) {clock : Nat → Nat}
    {bench bench' : Bench} (armed : m.armAll clock bench = (.ok (), m', bench')) :
    m'.Cleared bench'.timer := by
  rw [armAll] at armed
  split at armed
  · cases armed
  · rename_i complete
    split at armed
    · split at armed <;> cases armed
    · rename_i motors after begun
      cases armed
      obtain ⟨length, agrees, arms⟩ := beginArmFrom_ok serviceable begun
      have held (e : Esc) (mem : e ∈ motors.map Esc.finishArm) :
          e.Serviceable ∧ after.timer.refusal? e.armingWrite = none := by
        obtain ⟨motor, motor_mem, rfl⟩ := List.mem_map.mp mem
        obtain ⟨arming, same⟩ := motor.finishArm_eq
        rw [same, agrees.refusal?_eq]
        exact ⟨(arms motor motor_mem).1.withArming arming, (arms motor motor_mem).2⟩
      refine ⟨?_, fun e mem => (held e mem).1, fun e mem => (held e mem).2⟩
      rw [← complete]
      exact checkComplete_withMotors (by rw [List.length_map, length])

/-! ## Flying -/

namespace Cleared

variable {m : Mixer} {t u : Timer}

theorem of_agrees (cleared : m.Cleared t) (agrees : u.Agrees t) : m.Cleared u where
  complete := cleared.complete
  serviceable := cleared.serviceable
  arms e mem := (agrees.refusal?_eq _).trans (cleared.arms e mem)

theorem speedWrites_accepted (cleared : m.Cleared t) {c : Command} (inBounds : c.InBounds) :
    ∀ w ∈ m.speedWrites c, t.refusal? w = none := by
  intro w mem
  rw [speedWrites, List.mem_iff_getElem?] at mem
  obtain ⟨i, found⟩ := mem
  obtain ⟨e, speed, e_found, speed_found, rfl⟩ := List.getElem?_zipWith_eq_some.mp found
  have e_mem := List.mem_of_getElem? e_found
  have legal := allocate_mem m.geometry.inUnits_of_mem_table inBounds m.policy speed
    (List.mem_of_getElem? speed_found)
  exact Timer.refusal?_eq_none_of_le (cleared.arms e e_mem) rfl (UInt32.le_refl _)
    ((cleared.serviceable e e_mem).tuned.pulseNs_le legal)

theorem stopWrites_accepted (cleared : m.Cleared t) :
    ∀ w ∈ m.stopWrites, t.refusal? w = none := by
  intro w mem
  obtain ⟨e, e_mem, rfl⟩ := List.mem_map.mp mem
  exact Esc.stop_accepted (cleared.arms e e_mem)

/-- A cleared mixer executes exactly the commands within bounds. -/
theorem execute_outcome {bench : Bench} (cleared : m.Cleared bench.timer) (c : Command) :
    (m.execute c bench).1 = if c.InBounds then .ok () else .error .outOfRangeCommand := by
  split
  · rename_i inBounds
    rw [(execute_spec cleared.complete cleared.serviceable inBounds bench).1]
    exact Timer.firstFailure_eq_ok_iff.mpr (cleared.speedWrites_accepted inBounds)
  · rename_i outOfBounds
    rw [execute_outOfBounds cleared.complete outOfBounds]

theorem execute {bench : Bench} (cleared : m.Cleared bench.timer) (c : Command) :
    (m.execute c bench).2.1.Cleared (m.execute c bench).2.2.timer := by
  by_cases inBounds : c.InBounds
  · obtain ⟨outputs, same⟩ := m.execute_eq c bench
    have written := (execute_spec cleared.complete cleared.serviceable inBounds bench).2
    have agrees := bench.timer.attemptAll_agrees (bench.timer.throughRefusal (m.speedWrites c))
    rw [same, written]
    exact Cleared.mk cleared.complete cleared.serviceable (cleared.of_agrees agrees).arms
  · rw [execute_outOfBounds cleared.complete inBounds]
    exact cleared

/-- A cleared mixer can be stopped. -/
theorem stopAll_outcome {bench : Bench} (cleared : m.Cleared bench.timer) :
    (m.stopAll bench).1 = .ok () := by
  have initialized := (checkComplete_eq_ok cleared.complete).1
  rw [(stopAll_spec initialized cleared.serviceable bench).1]
  exact Timer.firstFailure_eq_ok_iff.mpr cleared.stopWrites_accepted

theorem stopAll {bench : Bench} (cleared : m.Cleared bench.timer) :
    (m.stopAll bench).2.1.Cleared (m.stopAll bench).2.2.timer := by
  have initialized := (checkComplete_eq_ok cleared.complete).1
  have agrees := bench.timer.attemptAll_agrees m.stopWrites
  have stopped := forEachFrom_forall
    (P := fun e => e.Serviceable ∧ bench.timer.refusal? e.armingWrite = none)
    (fun e bench held => by
      obtain ⟨arming, same⟩ := e.stop_eq bench
      rw [same]
      exact ⟨held.1.withArming arming, held.2⟩)
    .motorStopFailed (fun e mem => ⟨cleared.serviceable e mem, cleared.arms e mem⟩) 0 bench
  rw [(stopAll_spec initialized cleared.serviceable bench).2, stopAll_eq initialized]
  refine ⟨?_, fun e mem => (stopped e mem).1, fun e mem => ?_⟩
  · rw [checkComplete_withMotors (length_forEachFrom _ _ _ _)]
    exact cleared.complete
  · rw [agrees.refusal?_eq]
    exact (stopped e mem).2

end Cleared

end Mixer

end Multirotor
