import Multirotor.Proofs.Allocation.UnitInterval
import Multirotor.Proofs.Esc.PulseRange
import Multirotor.Proofs.Mixer.Frame

/-!
# What a mixer does to its timer

Executing a command attempts one write per motor up to the first refusal, and stopping attempts one
write per motor whatever is refused.  As no write changes what the timer answers, both the writes
and the outcome can be read off the timer as it was before.
-/

namespace Multirotor

/-- The outcome of writes for the motors from `index` on: the first refusal counts. -/
def Timer.firstFailure (t : Timer) (fault : WriteError → EscError) (index : Nat) :
    List Write → Except MixerError Unit
  | [] => .ok ()
  | w :: ws =>
    match t.answer w with
    | .ok () => t.firstFailure fault (index + 1) ws
    | .error reason => .error (.actuatorFailure index (fault reason))

/-- The first write of a sequence that the timer refuses, and its reason. -/
structure Timer.FirstRefusal (t : Timer) (ws : List Write) (index : Nat) (reason : WriteError) :
    Prop where
  refused : ∃ w, ws[index]? = some w ∧ t.refusal? w = some reason
  /-- Every write before it is accepted. -/
  earlier : ∀ w ∈ ws.take index, t.refusal? w = none

namespace Timer

variable {t u : Timer} {fault : WriteError → EscError}

theorem Agrees.firstFailure_eq (agrees : t.Agrees u) (index : Nat) (ws : List Write) :
    t.firstFailure fault index ws = u.firstFailure fault index ws := by
  induction ws generalizing index with
  | nil => rfl
  | cons w ws induction =>
    rw [firstFailure, firstFailure, agrees.answer_eq w, induction]

/-- Nothing fails exactly if nothing is refused. -/
theorem firstFailure_eq_ok_iff {index : Nat} {ws : List Write} :
    t.firstFailure fault index ws = .ok () ↔ ∀ w ∈ ws, t.refusal? w = none := by
  induction ws generalizing index with
  | nil => simp [firstFailure]
  | cons w ws induction =>
    rw [firstFailure, List.forall_mem_cons]
    rcases answer : t.answer w with reason | _
    · have refused : t.refusal? w ≠ none := fun accepted => by
        rw [answer_eq_ok_iff.mpr accepted] at answer
        cases answer
      simp [refused]
    · simp [answer_eq_ok_iff.mp answer, induction]

/-- A failure reports the first refusal. -/
theorem exists_firstRefusal {index : Nat} {ws : List Write} {e : MixerError}
    (failed : t.firstFailure fault index ws = .error e) :
    ∃ k reason, t.FirstRefusal ws k reason ∧ e = .actuatorFailure (index + k) (fault reason) := by
  induction ws generalizing index with
  | nil => cases failed
  | cons w ws induction =>
    rw [firstFailure, answer] at failed
    rcases refused : t.refusal? w with _ | reason <;> rw [refused] at failed
    · obtain ⟨k, reason, ⟨⟨v, found, v_refused⟩, earlier⟩, rfl⟩ := induction failed
      refine ⟨k + 1, reason, ⟨⟨v, found, v_refused⟩, ?_⟩, ?_⟩
      · exact List.forall_mem_cons.mpr ⟨refused, earlier⟩
      · rw [Nat.add_right_comm, Nat.add_assoc]
    · cases failed
      exact ⟨0, reason, ⟨⟨w, rfl, refused⟩, by simp⟩, rfl⟩

/-- What comes after an accepted write decides where the first refusal is. -/
theorem FirstRefusal.tail {w : Write} {ws : List Write} {k : Nat} {reason : WriteError}
    (first : t.FirstRefusal (w :: ws) (k + 1) reason) :
    t.refusal? w = none ∧ t.FirstRefusal ws k reason := by
  obtain ⟨⟨v, found, refused⟩, earlier⟩ := first
  obtain ⟨accepted, earlier⟩ := List.forall_mem_cons.mp earlier
  exact ⟨accepted, ⟨v, found, refused⟩, earlier⟩

/-- The first refusal is what a failure reports. -/
theorem FirstRefusal.firstFailure_eq {ws : List Write} {k : Nat} {reason : WriteError}
    (first : t.FirstRefusal ws k reason) (index : Nat) :
    t.firstFailure fault index ws = .error (.actuatorFailure (index + k) (fault reason)) := by
  induction ws generalizing k index with
  | nil =>
    obtain ⟨w, found, -⟩ := first.refused
    cases found
  | cons w ws induction =>
    rw [firstFailure, answer]
    rcases k with _ | k
    · obtain ⟨v, found, refused⟩ := first.refused
      obtain rfl : w = v := Option.some.inj found
      simp only [refused, Nat.add_zero]
    · obtain ⟨accepted, first⟩ := first.tail
      simp only [accepted, induction first]
      rw [Nat.add_right_comm, Nat.add_assoc]

theorem firstFailure_eq_error {index : Nat} {ws : List Write} {e : MixerError}
    (failed : t.firstFailure fault index ws = .error e) :
    ∃ motor source, e = .actuatorFailure motor source := by
  obtain ⟨k, reason, _, rfl⟩ := exists_firstRefusal failed
  exact ⟨_, _, rfl⟩

end Timer

/-! ## Executing commands -/

namespace Mixer

/-- The writes that give the motors their speeds for a command, in slot order. -/
def speedWrites (m : Mixer) (c : Command) : List Write :=
  List.zipWith Esc.speedWrite m.motors (allocate m.geometry.table m.policy c)

/-- There is one write for each motor, in slot order, and it drives the motor at its speed. -/
structure DrivesEach (m : Mixer) (speeds : List Binary32) (ws : List Write) : Prop where
  length : ws.length = m.motors.length
  drives : ∀ (i : Nat) (w : Write), ws[i]? = some w →
    ∃ e speed, m.motors[i]? = some e ∧ speeds[i]? = some speed ∧ w.Drives e speed

/-- The writes that stop the motors, in slot order. -/
def stopWrites (m : Mixer) : List Write := m.motors.map fun e => .stop e.channel

/-- Motors in use that get legal speeds are written to in order up to the first refusal. -/
theorem driveFrom_spec {motors : List Esc} {speeds outputs : List Binary32}
    (initialized : ∀ e ∈ motors, e.lifecycle = .initialized)
    (legal : ∀ speed ∈ speeds, 0 ≤ speed ∧ speed ≤ 1) (room : speeds.length ≤ outputs.length)
    (index : Nat) (bench : Bench) :
    (driveFrom index motors speeds outputs bench).1 =
        bench.timer.firstFailure .ofWrite index (List.zipWith Esc.speedWrite motors speeds) ∧
      (driveFrom index motors speeds outputs bench).2.2.timer =
        (bench.timer.attemptAll
          (bench.timer.throughRefusal (List.zipWith Esc.speedWrite motors speeds))).2 := by
  induction motors generalizing speeds outputs index bench with
  | nil => exact ⟨rfl, rfl⟩
  | cons motor motors induction =>
    rcases speeds with _ | ⟨speed, speeds⟩
    · exact ⟨rfl, rfl⟩
    rcases outputs with _ | ⟨output, outputs⟩
    · exact absurd room (by simp)
    obtain ⟨in_use, initialized⟩ := List.forall_mem_cons.mp initialized
    obtain ⟨legal_first, legal⟩ := List.forall_mem_cons.mp legal
    have driven := Esc.drive_eq in_use legal_first bench
    have agrees : (bench.write (motor.speedWrite speed)).2.timer.Agrees bench.timer :=
      bench.timer.set_agrees _
    have rest := induction initialized legal (Nat.le_of_succ_le_succ room) (index + 1)
      (bench.write (motor.speedWrite speed)).2
    rw [agrees.firstFailure_eq, agrees.throughRefusal_eq] at rest
    simp only [driveFrom, driven, List.zipWith_cons_cons, Timer.firstFailure, Timer.throughRefusal]
    rcases refused : bench.timer.refusal? (motor.speedWrite speed) with _ | reason
    · have answer := Timer.answer_eq_ok_iff.mpr refused
      rw [answer, if_pos rfl]
      exact rest
    · have answer : bench.timer.answer (motor.speedWrite speed) = .error reason := by
        rw [Timer.answer, refused]
      rw [answer, if_neg (by simp)]
      exact ⟨rfl, rfl⟩

variable {m : Mixer}

theorem checkComplete_eq_ok (complete : m.checkComplete = .ok ()) :
    m.lifecycle = .initialized ∧ m.motors.length = m.geometry.motorCount := by
  rw [checkComplete] at complete
  split at complete
  · cases complete
  · rename_i initialized
    split at complete
    · exact ⟨initialized, ‹_›⟩
    · cases complete

/-- A complete mixer gets one speed for each of its motors. -/
theorem length_speedWrites (complete : m.checkComplete = .ok ()) (c : Command) :
    (m.speedWrites c).length = m.motors.length := by
  rw [speedWrites, List.length_zipWith, m.geometry.length_allocate,
    (checkComplete_eq_ok complete).2, min_self]

theorem getElem?_speedWrites {i : Nat} {e : Esc} (found : m.motors[i]? = some e) (c : Command) :
    (m.speedWrites c)[i]? = (allocate m.geometry.table m.policy c)[i]?.map e.speedWrite := by
  rw [speedWrites, List.getElem?_zipWith, found]
  rcases (allocate m.geometry.table m.policy c)[i]? with _ | speed <;> rfl

/-- The writes go to the channels of the motors in slot order. -/
theorem map_channel_speedWrites (complete : m.checkComplete = .ok ()) (c : Command) :
    (m.speedWrites c).map Write.channel = m.motors.map Esc.channel := by
  have length := length_speedWrites complete c
  apply List.ext_getElem?
  intro i
  rw [List.getElem?_map, List.getElem?_map]
  by_cases inside : i < m.motors.length
  · have speed_inside : i < (m.speedWrites c).length := by rwa [length]
    rw [List.getElem?_eq_getElem inside, List.getElem?_eq_getElem speed_inside]
    simp only [speedWrites, List.getElem_zipWith, Option.map_some]
    rfl
  · rw [List.getElem?_eq_none (by omega), List.getElem?_eq_none (by omega)]
    rfl

theorem drivesEach_speedWrites (complete : m.checkComplete = .ok ()) (serviceable : m.Serviceable)
    (c : Command) : m.DrivesEach (allocate m.geometry.table m.policy c) (m.speedWrites c) := by
  refine ⟨length_speedWrites complete c, fun i w found => ?_⟩
  rw [speedWrites, List.getElem?_zipWith_eq_some] at found
  obtain ⟨e, speed, motor, allocated, rfl⟩ := found
  have tuned := (serviceable e (List.mem_of_getElem? motor)).tuned
  exact ⟨e, speed, motor, allocated, tuned.speedWrite_drives speed⟩

/-- There is room for the speeds of every motor. -/
theorem exists_preparedOutputs (m : Mixer) (c : Command) :
    let speeds := allocate m.geometry.table m.policy c
    ∃ outputs, m.preparedOutputs? speeds.length = some outputs ∧
      outputs.length = speeds.length := by
  intro speeds
  have room : speeds.length ≤ maxMotors :=
    (m.geometry.length_allocate m.policy c).trans_le m.geometry.motorCount_le
  rw [preparedOutputs?, if_pos room]
  split
  · exact ⟨m.outputs, rfl, ‹_›⟩
  · exact ⟨_, rfl, List.length_replicate⟩

/-- A command within bounds is written motor by motor up to the first refusal. -/
theorem execute_spec (complete : m.checkComplete = .ok ()) (serviceable : m.Serviceable)
    {c : Command} (inBounds : c.InBounds) (bench : Bench) :
    (m.execute c bench).1 = bench.timer.firstFailure .ofWrite 0 (m.speedWrites c) ∧
      (m.execute c bench).2.2.timer =
        (bench.timer.attemptAll (bench.timer.throughRefusal (m.speedWrites c))).2 := by
  obtain ⟨outputs, prepared, length⟩ := m.exists_preparedOutputs c
  have driven := driveFrom_spec (fun e mem => (serviceable e mem).initialized)
    (allocate_mem m.geometry.inUnits_of_mem_table inBounds m.policy) length.ge 0 bench
  simp only [execute, complete, if_pos inBounds, prepared]
  exact driven

/-- The writes that executing a command attempts. -/
def executionWrites (m : Mixer) (c : Command) (bench : Bench) : List Write :=
  (m.execute c bench).2.2.timer.attempts.toList.drop bench.timer.attempts.toList.length

theorem executionWrites_eq (complete : m.checkComplete = .ok ()) (serviceable : m.Serviceable)
    {c : Command} (inBounds : c.InBounds) (bench : Bench) :
    m.executionWrites c bench = bench.timer.throughRefusal (m.speedWrites c) := by
  rw [executionWrites, (execute_spec complete serviceable inBounds bench).2,
    Timer.attempts_attemptAll, List.drop_left]

theorem execute_outOfBounds (complete : m.checkComplete = .ok ()) {c : Command}
    (outOfBounds : ¬ c.InBounds) (bench : Bench) :
    m.execute c bench = (.error .outOfRangeCommand, m, bench) := by
  simp only [execute, complete, if_neg outOfBounds]

/-! ## Stopping -/

/-- An operation that stops its motor tries every motor, and the first refusal is the outcome. -/
theorem forEachFrom_spec {operation : Esc → Bench → Except EscError Unit × Esc × Bench}
    (stops : ∀ (e : Esc) (bench : Bench), e.lifecycle = .initialized →
      (operation e bench).1 = (bench.timer.answer (.stop e.channel)).mapError .stopFailed ∧
        (operation e bench).2.2 = (bench.write (.stop e.channel)).2)
    {motors : List Esc} (initialized : ∀ e ∈ motors, e.lifecycle = .initialized)
    (report : Nat → EscError → Event) (index : Nat) (bench : Bench) :
    (forEachFrom index operation report motors bench).1 =
        bench.timer.firstFailure .stopFailed index (motors.map fun e => .stop e.channel) ∧
      (forEachFrom index operation report motors bench).2.2.timer =
        (bench.timer.attemptAll (motors.map fun e => .stop e.channel)).2 := by
  induction motors generalizing index bench with
  | nil => exact ⟨rfl, rfl⟩
  | cons motor motors induction =>
    obtain ⟨in_use, initialized⟩ := List.forall_mem_cons.mp initialized
    obtain ⟨outcome, written⟩ := stops motor bench in_use
    have agrees : (bench.write (.stop motor.channel)).2.timer.Agrees bench.timer :=
      bench.timer.set_agrees _
    have rest := induction initialized (index + 1)
    simp only [forEachFrom, List.map_cons, Timer.firstFailure, Timer.attemptAll]
    rcases stopped : operation motor bench with ⟨result, motor', after⟩
    rw [stopped] at outcome written
    obtain rfl : after = (bench.write (.stop motor.channel)).2 := written
    obtain rfl : result = (bench.timer.answer (.stop motor.channel)).mapError .stopFailed := outcome
    rcases bench.timer.answer (.stop motor.channel) with reason | _
    · exact ⟨rfl, (rest (Bench.log _ _)).2⟩
    · have rest := rest (bench.write (.stop motor.channel)).2
      rw [agrees.firstFailure_eq] at rest
      exact rest

/-- Stopping a mixer in use clears its outputs and changes nothing else but its motors. -/
theorem stopAll_eq (initialized : m.lifecycle = .initialized) (bench : Bench) :
    (m.stopAll bench).2.1 =
      { m with
        motors := (forEachFrom 0 Esc.stop .motorStopFailed m.motors bench).2.1
        outputs := [] } := by
  rw [stopAll, initialized]
  rcases forEachFrom 0 Esc.stop .motorStopFailed m.motors bench with ⟨e | _, motors, after⟩ <;> rfl

theorem stopAll_spec (initialized : m.lifecycle = .initialized) (serviceable : m.Serviceable)
    (bench : Bench) :
    (m.stopAll bench).1 = bench.timer.firstFailure .stopFailed 0 m.stopWrites ∧
      (m.stopAll bench).2.2.timer = (bench.timer.attemptAll m.stopWrites).2 := by
  obtain ⟨outcome, written⟩ := forEachFrom_spec (fun _ bench in_use => Esc.stop_spec in_use bench)
    (fun e mem => (serviceable e mem).initialized) .motorStopFailed 0 bench
  rw [stopAll, initialized]
  rcases stopped : forEachFrom 0 Esc.stop .motorStopFailed m.motors bench with
    ⟨e | _, motors, after⟩ <;> rw [stopped] at outcome written
  · exact ⟨outcome, written⟩
  · exact ⟨outcome, written⟩

/-- A motor that takes its stop keeps it while the others are stopped. -/
theorem output?_stopWrites {t : Timer} {e : Esc} (mem : e ∈ m.motors)
    (accepted : t.refusal? (.stop e.channel) = none) :
    (t.attemptAll m.stopWrites).2.output? e.channel = some (.stop e.channel) := by
  apply Timer.output?_attemptAll_of_accepted (List.mem_map_of_mem mem) accepted
  intro w w_mem same
  obtain ⟨other, _, rfl⟩ := List.mem_map.mp w_mem
  exact congrArg Write.stop same

end Mixer

end Multirotor
