import Multirotor.ControlLoop.Basic
import Multirotor.Proofs.Mixer.Execution

/-!
# One cycle of the control loop

A cycle of a loop whose mixer is complete goes one of four ways: the command source asks for the
motors to be killed, the command at hand is out of bounds and skipped, it is executed, or a motor
fails while it is.  A kill and a failure ground the vehicle and end the loop.
-/

namespace Multirotor

namespace Flight

/-! ## Looking into the mailbox -/

/-- The mailbox asks for the motors to be killed. -/
def Killed (f : Flight) : Prop :=
  ∃ sample, f.vehicle.mailbox.latest? = some sample ∧ sample.flags.Contains .kill

/-- The flight after the cycle has looked into the mailbox. -/
def lookup (f : Flight) : Flight :=
  match f.vehicle.mailbox.latest? with
  | some sample => f.accept sample
  | none => f

/-- The command that the cycle applies. -/
def applied (f : Flight) : Command := f.lookup.command

theorem lookup_eq (f : Flight) :
    ∃ sequence, f.lookup = { f with command := f.applied, sequence := sequence } := by
  rw [applied, lookup]
  split
  · rename_i sample _
    rw [accept]
    split
    · exact ⟨f.sequence, rfl⟩
    · exact ⟨sample.sequence, rfl⟩
  · exact ⟨f.sequence, rfl⟩

/-! ## Going on -/

/-- The end of a cycle whose command was dealt with: the loop waits unless all cycles were run. -/
def finish (options : LoopOptions) (elapsedUs : Nat) (f : Flight) :
    Option (Except MixerError Exit) × Flight :=
  if options.maxCycles?.any (· ≤ (f.countCycle elapsedUs).cycles) then
    (some (.ok .cyclesCompleted), f.countCycle elapsedUs)
  else (none, (f.countCycle elapsedUs).wait options elapsedUs)

/-- Waiting is seen in the pauses only. -/
theorem wait_eq (f : Flight) (options : LoopOptions) (elapsedUs : Nat) :
    ∃ pauses, f.wait options elapsedUs = { f with pauses := pauses } := by
  rw [wait]
  split
  · exact ⟨_, rfl⟩
  · exact ⟨f.pauses, rfl⟩

/-- Going on counts the cycle and shows how long it took. -/
theorem finish_eq (options : LoopOptions) (elapsedUs : Nat) (f : Flight) :
    ∃ pauses, (f.finish options elapsedUs).2 =
      { f with
        vehicle.telemetry := f.vehicle.telemetry.storeExecTime elapsedUs
        cycles := f.cycles + 1
        pauses := pauses } := by
  rw [finish]
  split
  · exact ⟨f.pauses, rfl⟩
  · obtain ⟨pauses, same⟩ := (f.countCycle elapsedUs).wait_eq options elapsedUs
    exact ⟨pauses, same⟩

theorem finish_fst (options : LoopOptions) (elapsedUs : Nat) (f : Flight) :
    (f.finish options elapsedUs).1 = none ∨
      (f.finish options elapsedUs).1 = some (.ok .cyclesCompleted) := by
  rw [finish]
  split
  · exact .inr rfl
  · exact .inl rfl

/-- Going on never ends the loop early. -/
theorem finish_ne_early (options : LoopOptions) (elapsedUs : Nat) (f : Flight)
    {outcome : Except MixerError Exit} (early : outcome ≠ .ok .cyclesCompleted) :
    some outcome ≠ (f.finish options elapsedUs).1 := by
  rcases f.finish_fst options elapsedUs with going | completed
  · simp [going]
  · simp [completed, early]

/-! ## Grounding -/

/-- `g` is `f` after its motors were stopped: none is under the control of the loop, and every one
was tried. -/
structure GroundedFrom (f g : Flight) : Prop where
  /-- The telemetry says so. -/
  disarmed : g.vehicle.telemetry.armed = false
  /-- The mixer shows no outputs. -/
  outputs : g.vehicle.mixer.outputs = []
  /-- The stops of all motors were attempted. -/
  timer : g.vehicle.bench.timer =
    (f.vehicle.bench.timer.attemptAll f.vehicle.mixer.stopWrites).2

theorem stopAll_grounded {f : Flight} (initialized : f.vehicle.mixer.lifecycle = .initialized)
    (serviceable : f.vehicle.mixer.Serviceable) (disarmed : f.vehicle.telemetry.armed = false) :
    f.GroundedFrom f.stopAll.2 where
  disarmed := disarmed
  outputs := congrArg Mixer.outputs (Mixer.stopAll_eq initialized f.vehicle.bench)
  timer := (Mixer.stopAll_spec initialized serviceable f.vehicle.bench).2

theorem kill_snd (f : Flight) : f.kill.2 = f.disarm.stopAll.2 := by
  rw [kill]
  rcases f.disarm.stopAll with ⟨e | _, g⟩ <;> rfl

/-- A kill succeeds exactly if no motor refuses to stop. -/
theorem kill_fst {f : Flight} (initialized : f.vehicle.mixer.lifecycle = .initialized)
    (serviceable : f.vehicle.mixer.Serviceable) :
    f.kill.1 = (f.vehicle.bench.timer.firstFailure .stopFailed 0 f.vehicle.mixer.stopWrites).map
      fun _ => .killed := by
  have outcome := (Mixer.stopAll_spec initialized serviceable f.vehicle.bench).1
  have same : f.disarm.stopAll.1 = (f.vehicle.mixer.stopAll f.vehicle.bench).1 := rfl
  rw [← outcome, ← same, kill]
  rcases f.disarm.stopAll with ⟨e | _, g⟩ <;> rfl

theorem kill_ne_completed (f : Flight) : f.kill.1 ≠ .ok .cyclesCompleted := by
  rw [kill]
  split <;> simp

theorem kill_grounded {f : Flight} (initialized : f.vehicle.mixer.lifecycle = .initialized)
    (serviceable : f.vehicle.mixer.Serviceable) : f.GroundedFrom f.kill.2 := by
  have grounded := stopAll_grounded (f := f.disarm) initialized serviceable rfl
  rw [kill_snd]
  exact ⟨grounded.disarmed, grounded.outputs, grounded.timer⟩

theorem failSafe_grounded {f : Flight} (initialized : f.vehicle.mixer.lifecycle = .initialized)
    (serviceable : f.vehicle.mixer.Serviceable) (e : MixerError) :
    f.GroundedFrom (f.failSafe e) := by
  have grounded := stopAll_grounded (f := (f.log (.motorFailed e)).disarm) initialized serviceable
    rfl
  rw [failSafe]
  rcases stopped : (f.log (.motorFailed e)).disarm.stopAll with ⟨stopError | _, g⟩ <;>
    rw [stopped] at grounded <;>
    exact ⟨grounded.disarmed, grounded.outputs, grounded.timer⟩

/-! ## The four ways -/

/-- What the mixer makes of the command that the cycle applies. -/
def execution (f : Flight) : Except MixerError Unit × Mixer × Bench :=
  f.vehicle.mixer.execute f.applied f.vehicle.bench

/-- The flight after the mixer has dealt with the command. -/
def driven (f : Flight) : Flight :=
  { f.lookup with vehicle.mixer := f.execution.2.1, vehicle.bench := f.execution.2.2 }

/-- The ways in which a cycle can go, with its outcome and the flight after it. -/
inductive Course (options : LoopOptions) (elapsedUs : Nat) (f : Flight) :
    Option (Except MixerError Exit) → Flight → Prop
  | kill : f.Killed → Course options elapsedUs f (some f.kill.1) f.kill.2
  | skip : ¬ f.Killed → ¬ f.applied.InBounds →
      Course options elapsedUs f ((f.lookup.skip .outOfRangeCommand).finish options elapsedUs).1
        ((f.lookup.skip .outOfRangeCommand).finish options elapsedUs).2
  | execute : ¬ f.Killed → f.applied.InBounds → f.execution.1 = .ok () →
      Course options elapsedUs f (f.driven.publishPower.finish options elapsedUs).1
        (f.driven.publishPower.finish options elapsedUs).2
  | fail {motor : Nat} {source : EscError} : ¬ f.Killed → f.applied.InBounds →
      f.execution.1 = .error (.actuatorFailure motor source) →
      Course options elapsedUs f (some (.error (.actuatorFailure motor source)))
        (f.driven.failSafe (.actuatorFailure motor source))

/-- A cycle that does not end the loop early executes its command if it is within bounds. -/
theorem Course.executed {options : LoopOptions} {elapsedUs : Nat} {f g : Flight}
    {result : Option (Except MixerError Exit)} (course : f.Course options elapsedUs result g)
    (fine : result = none ∨ result = some (.ok .cyclesCompleted)) :
    ¬ f.Killed ∧ (f.applied.InBounds → f.execution.1 = .ok ()) := by
  cases course with
  | kill =>
    rcases fine with going | completed
    · cases going
    · exact absurd (Option.some.inj completed) f.kill_ne_completed
  | skip alive outOfBounds => exact ⟨alive, fun inBounds => absurd inBounds outOfBounds⟩
  | execute alive _ executed => exact ⟨alive, fun _ => executed⟩
  | fail =>
    rcases fine with going | completed
    · cases going
    · cases completed

theorem cycle_of_killed {f : Flight} (killed : f.Killed) (options : LoopOptions)
    (elapsedUs : Nat) : f.cycle options elapsedUs = (some f.kill.1, f.kill.2) := by
  obtain ⟨sample, latest, kill⟩ := killed
  simp only [cycle, latest, if_pos kill]

theorem cycle_of_not_killed {f : Flight} (alive : ¬ f.Killed) (options : LoopOptions)
    (elapsedUs : Nat) : f.cycle options elapsedUs = cycle.work options elapsedUs f.lookup := by
  rcases latest : f.vehicle.mailbox.latest? with _ | sample
  · simp only [cycle, lookup, latest]
  · have kept : ¬ sample.flags.Contains .kill := fun kill => alive ⟨sample, latest, kill⟩
    simp only [cycle, lookup, latest, if_neg kept]

theorem work_of_ok {f g : Flight} (actuated : f.actuate = (.ok (), g)) (options : LoopOptions)
    (elapsedUs : Nat) : cycle.work options elapsedUs f = g.finish options elapsedUs := by
  rw [cycle.work, actuated]
  rfl

theorem work_of_error {f g : Flight} {e : MixerError} (actuated : f.actuate = (.error e, g))
    (options : LoopOptions) (elapsedUs : Nat) :
    cycle.work options elapsedUs f = (some (.error e), g) := by
  rw [cycle.work, actuated]

theorem lookup_execution (f : Flight) :
    f.lookup.vehicle.mixer.execute f.lookup.command f.lookup.vehicle.bench = f.execution := by
  obtain ⟨sequence, same⟩ := f.lookup_eq
  rw [same]
  rfl

theorem cycle_of_executed {f : Flight} (alive : ¬ f.Killed) (executed : f.execution.1 = .ok ())
    (options : LoopOptions) (elapsedUs : Nat) :
    f.cycle options elapsedUs = f.driven.publishPower.finish options elapsedUs := by
  have actuated : f.lookup.actuate = (.ok (), f.driven.publishPower) := by
    rw [driven, actuate, lookup_execution]
    rcases outcome : f.execution with ⟨result, mixer, bench⟩
    rw [outcome] at executed
    subst executed
    rfl
  rw [cycle_of_not_killed alive, work_of_ok actuated]

theorem cycle_of_failed {f : Flight} (alive : ¬ f.Killed) {e : MixerError}
    (failed : f.execution.1 = .error e) (failSafe : e.RequiresFailSafe) (options : LoopOptions)
    (elapsedUs : Nat) : f.cycle options elapsedUs = (some (.error e), f.driven.failSafe e) := by
  have final : ¬ e.IsRecoverable := by
    rintro rfl
    exact absurd failSafe (by decide)
  have actuated : f.lookup.actuate = (.error e, f.driven.failSafe e) := by
    rw [driven, actuate, lookup_execution]
    rcases outcome : f.execution with ⟨result, mixer, bench⟩
    rw [outcome] at failed
    subst failed
    simp only [if_neg final, if_pos failSafe]
  rw [cycle_of_not_killed alive, work_of_error actuated]

theorem cycle_of_outOfBounds {f : Flight} (complete : f.vehicle.mixer.checkComplete = .ok ())
    (alive : ¬ f.Killed) (outOfBounds : ¬ f.applied.InBounds) (options : LoopOptions)
    (elapsedUs : Nat) :
    f.cycle options elapsedUs = (f.lookup.skip .outOfRangeCommand).finish options elapsedUs := by
  have actuated : f.lookup.actuate = (.ok (), f.lookup.skip .outOfRangeCommand) := by
    obtain ⟨sequence, same⟩ := f.lookup_eq
    rw [actuate, lookup_execution, execution, Mixer.execute_outOfBounds complete outOfBounds, same]
    rfl
  rw [cycle_of_not_killed alive, work_of_ok actuated]

/-- An execution of a complete mixer can fail only because a motor does. -/
theorem execution_failure {f : Flight} (complete : f.vehicle.mixer.checkComplete = .ok ())
    (serviceable : f.vehicle.mixer.Serviceable) (inBounds : f.applied.InBounds) {e : MixerError}
    (failed : f.execution.1 = .error e) : ∃ motor source, e = .actuatorFailure motor source := by
  rw [execution, (Mixer.execute_spec complete serviceable inBounds _).1] at failed
  exact Timer.firstFailure_eq_error failed

/-- A cycle of a loop whose mixer is complete goes one of the four ways. -/
theorem cycle_course {f : Flight} (complete : f.vehicle.mixer.checkComplete = .ok ())
    (serviceable : f.vehicle.mixer.Serviceable) (options : LoopOptions) (elapsedUs : Nat) :
    f.Course options elapsedUs (f.cycle options elapsedUs).1 (f.cycle options elapsedUs).2 := by
  by_cases killed : f.Killed
  · rw [cycle_of_killed killed]
    exact .kill killed
  · by_cases inBounds : f.applied.InBounds
    · rcases executed : f.execution.1 with e | _
      · obtain ⟨motor, source, rfl⟩ := execution_failure complete serviceable inBounds executed
        rw [cycle_of_failed killed executed rfl]
        exact .fail killed inBounds executed
      · rw [cycle_of_executed killed executed]
        exact .execute killed inBounds executed
    · rw [cycle_of_outOfBounds complete killed inBounds]
      exact .skip killed inBounds

/-! ## What a cycle writes -/

/-- The writes attempted so far, oldest first. -/
def attempted (f : Flight) : List Write := f.vehicle.bench.timer.attempts.toList

/-- The writes that a cycle attempts. -/
def cycleWrites (options : LoopOptions) (elapsedUs : Nat) (f : Flight) : List Write :=
  (f.cycle options elapsedUs).2.attempted.drop f.attempted.length

/-- Executing a command changes nothing of the mixer but its outputs. -/
theorem driven_mixer (f : Flight) :
    ∃ outputs, f.driven.vehicle.mixer = { f.vehicle.mixer with outputs := outputs } :=
  f.vehicle.mixer.execute_eq f.applied f.vehicle.bench

theorem attempted_finish (options : LoopOptions) (elapsedUs : Nat) (f : Flight) :
    (f.finish options elapsedUs).2.attempted = f.attempted := by
  obtain ⟨pauses, same⟩ := f.finish_eq options elapsedUs
  rw [same]
  rfl

theorem attempted_lookup (f : Flight) : f.lookup.attempted = f.attempted := by
  obtain ⟨sequence, same⟩ := f.lookup_eq
  rw [same]
  rfl

theorem GroundedFrom.attempted_eq {f g : Flight} (grounded : f.GroundedFrom g) :
    g.attempted = f.attempted ++ f.vehicle.mixer.stopWrites := by
  rw [attempted, grounded.timer, Timer.attempts_attemptAll]
  rfl

section

variable {f : Flight} {options : LoopOptions} {elapsedUs : Nat}

theorem cycleWrites_of_append {writes : List Write}
    (recorded : (f.cycle options elapsedUs).2.attempted = f.attempted ++ writes) :
    f.cycleWrites options elapsedUs = writes := by
  rw [cycleWrites, recorded, List.drop_left]

variable (complete : f.vehicle.mixer.checkComplete = .ok ())
  (serviceable : f.vehicle.mixer.Serviceable)
include complete

theorem cycleWrites_of_outOfBounds (alive : ¬ f.Killed) (outOfBounds : ¬ f.applied.InBounds) :
    f.cycleWrites options elapsedUs = [] := by
  apply cycleWrites_of_append
  rw [cycle_of_outOfBounds complete alive outOfBounds, attempted_finish, List.append_nil]
  exact f.attempted_lookup

include serviceable

theorem driven_timer (inBounds : f.applied.InBounds) :
    f.driven.vehicle.bench.timer =
      (f.vehicle.bench.timer.attemptAll
        (f.vehicle.bench.timer.throughRefusal (f.vehicle.mixer.speedWrites f.applied))).2 :=
  (Mixer.execute_spec complete serviceable inBounds f.vehicle.bench).2

theorem attempted_driven (inBounds : f.applied.InBounds) :
    f.driven.attempted = f.attempted ++
      f.vehicle.bench.timer.throughRefusal (f.vehicle.mixer.speedWrites f.applied) := by
  rw [attempted, driven_timer complete serviceable inBounds, Timer.attempts_attemptAll]
  rfl

theorem failed_grounded (e : MixerError) : f.driven.GroundedFrom (f.driven.failSafe e) := by
  obtain ⟨outputs, same⟩ := f.driven_mixer
  apply failSafe_grounded <;> rw [same]
  · exact (Mixer.checkComplete_eq_ok complete).1
  · exact serviceable

theorem cycleWrites_of_killed (killed : f.Killed) :
    f.cycleWrites options elapsedUs = f.vehicle.mixer.stopWrites := by
  apply cycleWrites_of_append
  rw [cycle_of_killed killed]
  exact (kill_grounded (Mixer.checkComplete_eq_ok complete).1 serviceable).attempted_eq

theorem cycleWrites_of_executed (alive : ¬ f.Killed) (inBounds : f.applied.InBounds)
    (executed : f.execution.1 = .ok ()) :
    f.cycleWrites options elapsedUs =
      f.vehicle.bench.timer.throughRefusal (f.vehicle.mixer.speedWrites f.applied) := by
  apply cycleWrites_of_append
  rw [cycle_of_executed alive executed, attempted_finish]
  exact attempted_driven complete serviceable inBounds

theorem cycleWrites_of_failed (alive : ¬ f.Killed) (inBounds : f.applied.InBounds)
    {e : MixerError} (failed : f.execution.1 = .error e) :
    f.cycleWrites options elapsedUs =
      f.vehicle.bench.timer.throughRefusal (f.vehicle.mixer.speedWrites f.applied) ++
        f.vehicle.mixer.stopWrites := by
  obtain ⟨motor, source, rfl⟩ := execution_failure complete serviceable inBounds failed
  obtain ⟨outputs, same⟩ := f.driven_mixer
  apply cycleWrites_of_append
  rw [cycle_of_failed alive failed rfl, (failed_grounded complete serviceable _).attempted_eq,
    attempted_driven complete serviceable inBounds, same, List.append_assoc]
  rfl

end

/-! ## What actuating leaves alone -/

section

variable {f g : Flight} {options : LoopOptions} {elapsedUs : Nat}

/-- The loop at `g` knows what it knew at `f`; the mixer, the bench and the telemetry may differ. -/
structure Keeps (f g : Flight) : Prop where
  /-- The command at hand. -/
  command : g.command = f.command
  /-- Its sequence number. -/
  sequence : g.sequence = f.sequence
  /-- The number of cycles. -/
  cycles : g.cycles = f.cycles
  /-- The waits so far. -/
  pauses : g.pauses = f.pauses
  /-- What was published. -/
  mailbox : g.vehicle.mailbox = f.vehicle.mailbox

theorem stopAll_keeps (f : Flight) : f.Keeps f.stopAll.2 := ⟨rfl, rfl, rfl, rfl, rfl⟩

theorem kill_keeps (f : Flight) : f.Keeps f.kill.2 := by
  obtain ⟨command, sequence, cycles, pauses, mailbox⟩ := f.disarm.stopAll_keeps
  rw [← kill_snd] at command sequence cycles pauses mailbox
  exact ⟨command, sequence, cycles, pauses, mailbox⟩

theorem failSafe_keeps (f : Flight) (e : MixerError) : f.Keeps (f.failSafe e) := by
  have keeps := ((f.log (.motorFailed e)).disarm).stopAll_keeps
  rw [failSafe]
  split <;> rename_i stopped <;> rw [stopped] at keeps <;>
    exact ⟨keeps.command, keeps.sequence, keeps.cycles, keeps.pauses, keeps.mailbox⟩

theorem actuate_keeps (f : Flight) : f.Keeps f.actuate.2 := by
  rw [actuate]
  split
  rename_i result mixer bench _
  cases result with
  | ok => exact ⟨rfl, rfl, rfl, rfl, rfl⟩
  | error e =>
    dsimp only
    split
    · exact ⟨rfl, rfl, rfl, rfl, rfl⟩
    · split
      · have keeps := failSafe_keeps { f with vehicle.mixer := mixer, vehicle.bench := bench } e
        exact ⟨keeps.command, keeps.sequence, keeps.cycles, keeps.pauses, keeps.mailbox⟩
      · exact ⟨rfl, rfl, rfl, rfl, rfl⟩

theorem lookup_pauses (f : Flight) : f.lookup.pauses = f.pauses := by
  obtain ⟨sequence, same⟩ := f.lookup_eq
  rw [same]

/-- A cycle that goes on ends with its wait. -/
theorem cycle_of_goes_on (goes_on : f.cycle options elapsedUs = (none, g)) :
    ∃ h, f.lookup.Keeps h ∧ g = (h.countCycle elapsedUs).wait options elapsedUs := by
  have alive : ¬ f.Killed := by
    intro killed
    rw [cycle_of_killed killed] at goes_on
    cases goes_on
  have keeps := f.lookup.actuate_keeps
  rw [cycle_of_not_killed alive, cycle.work] at goes_on
  split at goes_on
  · cases goes_on
  · rename_i h actuated
    rw [actuated] at keeps
    dsimp only at goes_on
    split at goes_on <;> cases goes_on
    exact ⟨h, keeps, rfl⟩

/-- A cycle that ends the loop asks for no wait. -/
theorem pauses_of_ended {result : Except MixerError Exit}
    (ended : f.cycle options elapsedUs = (some result, g)) : g.pauses = f.pauses := by
  by_cases killed : f.Killed
  · rw [cycle_of_killed killed] at ended
    cases ended
    exact f.kill_keeps.pauses
  · have keeps := f.lookup.actuate_keeps.pauses
    rw [lookup_pauses] at keeps
    rw [cycle_of_not_killed killed, cycle.work] at ended
    split at ended <;> rename_i actuated <;> rw [actuated] at keeps
    · cases ended
      exact keeps
    · dsimp only at ended
      split at ended <;> cases ended
      exact keeps

end

end Flight

end Multirotor
