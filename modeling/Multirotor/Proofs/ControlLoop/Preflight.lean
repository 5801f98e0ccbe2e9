import Multirotor.Proofs.ControlLoop.Run
import Multirotor.Proofs.Mixer.Cleared

/-!
# Arming is a sufficient pre-flight check

As long as neither the readiness nor the faults of the timer change, nothing that is done to a
cleared vehicle takes its clearance away: commands within bounds are executed, the motors can be
stopped, and the control loop does not fail.
-/

namespace Multirotor

/-- An input that leaves the readiness and the faults of the timer alone. -/
def Input.Benign : Input → Prop
  | .write _ | .publish _ _ | .note _ => True
  | .setReady _ | .injectFault _ _ | .clearFaults => False

/-- Something that is done to a vehicle once it is armed. -/
inductive Trial where
  | execute (command : Command)
  | stopAll
  /-- The control loop runs until it ends or no batch of arrivals is left. -/
  | fly (options : LoopOptions) (elapsedUs : Nat → Nat) (arrivals : List (List Input))
  /-- Other tasks do something. -/
  | receive (input : Input)

/-- Everything that other tasks do during the trial leaves readiness and faults alone. -/
def Trial.Benign : Trial → Prop
  | .execute _ | .stopAll => True
  | .fly _ _ arrivals => ∀ batch ∈ arrivals, ∀ input ∈ batch, input.Benign
  | .receive input => input.Benign

namespace Vehicle

/-- The vehicle after a trial. -/
def undergo (v : Vehicle) : Trial → Vehicle
  | .execute command =>
    let outcome := (v.mixer.execute command v.bench).2
    { v with mixer := outcome.1, bench := outcome.2 }
  | .stopAll =>
    let outcome := (v.mixer.stopAll v.bench).2
    { v with mixer := outcome.1, bench := outcome.2 }
  | .fly options elapsedUs arrivals => (v.fly options elapsedUs arrivals).2.vehicle
  | .receive input => v.receive input

/-- The mixer is cleared on the timer of the bench. -/
def Cleared (v : Vehicle) : Prop := v.mixer.Cleared v.bench.timer

theorem receive_agrees {input : Input} (benign : input.Benign) (v : Vehicle) :
    (v.receive input).bench.timer.Agrees v.bench.timer := by
  cases input with
  | write w => exact v.bench.timer.set_agrees w
  | publish => exact .refl _
  | note => exact .refl _
  | setReady => exact benign.elim
  | injectFault => exact benign.elim
  | clearFaults => exact benign.elim

theorem Cleared.receive {v : Vehicle} (cleared : v.Cleared) {input : Input}
    (benign : input.Benign) : (v.receive input).Cleared := by
  rw [Cleared, receive_mixer]
  exact cleared.of_agrees (receive_agrees benign v)

theorem Cleared.receiveAll {v : Vehicle} (cleared : v.Cleared) {inputs : List Input}
    (benign : ∀ input ∈ inputs, input.Benign) : (v.receiveAll inputs).Cleared := by
  induction inputs generalizing v with
  | nil => exact cleared
  | cons input inputs induction =>
    obtain ⟨first, rest⟩ := List.forall_mem_cons.mp benign
    exact induction (cleared.receive first) rest

end Vehicle

/-! ## Flying a cleared vehicle -/

namespace Flight

variable {f : Flight}

theorem cleared_finish (cleared : f.vehicle.Cleared) (options : LoopOptions) (elapsedUs : Nat) :
    (f.finish options elapsedUs).2.vehicle.Cleared := by
  obtain ⟨pauses, same⟩ := f.finish_eq options elapsedUs
  rw [same]
  exact cleared

theorem finish_ne_error (options : LoopOptions) (elapsedUs : Nat) (e : MixerError) :
    (f.finish options elapsedUs).1 ≠ some (.error e) :=
  (finish_ne_early options elapsedUs f (by simp)).symm

/-- A cycle of a cleared vehicle does not fail and leaves it cleared. -/
theorem cleared_cycle (cleared : f.vehicle.Cleared) (options : LoopOptions) (elapsedUs : Nat) :
    (f.cycle options elapsedUs).2.vehicle.Cleared ∧
      ∀ e, (f.cycle options elapsedUs).1 ≠ some (.error e) := by
  have executed := Mixer.Cleared.execute_outcome cleared f.applied
  have course := cycle_course cleared.complete cleared.serviceable options elapsedUs
  generalize (f.cycle options elapsedUs).1 = result at course ⊢
  generalize (f.cycle options elapsedUs).2 = g at course ⊢
  cases course with
  | kill =>
    refine ⟨?_, fun e failed => ?_⟩
    · rw [kill_snd]
      exact Mixer.Cleared.stopAll cleared
    · rw [kill_fst (Mixer.checkComplete_eq_ok cleared.complete).1 cleared.serviceable,
        Timer.firstFailure_eq_ok_iff.mpr cleared.stopWrites_accepted] at failed
      cases failed
  | skip =>
    refine ⟨cleared_finish ?_ _ _, finish_ne_error _ _⟩
    obtain ⟨sequence, same⟩ := f.lookup_eq
    rw [same]
    exact cleared
  | execute =>
    have driven : f.driven.publishPower.vehicle.Cleared :=
      Mixer.Cleared.execute cleared f.applied
    exact ⟨cleared_finish driven _ _, finish_ne_error _ _⟩
  | fail _ inBounds failed =>
    rw [if_pos inBounds] at executed
    rw [execution, executed] at failed
    cases failed

theorem cleared_run (cleared : f.vehicle.Cleared) (options : LoopOptions) (elapsedUs : Nat → Nat)
    {arrivals : List (List Input)} (benign : ∀ batch ∈ arrivals, ∀ input ∈ batch, input.Benign) :
    (run options elapsedUs arrivals f).2.vehicle.Cleared ∧
      ∀ e, (run options elapsedUs arrivals f).1 ≠ some (.error e) := by
  have all : ∀ s ∈ starts options elapsedUs arrivals f, s.vehicle.Cleared := by
    apply forall_mem_starts (P := fun s => s.vehicle.Cleared) cleared
    intro s g elapsed cleared goes_on batch mem
    have next := (s.cleared_cycle cleared options elapsed).1
    rw [goes_on] at next
    exact next.receiveAll (benign batch mem)
  obtain ⟨earlier, last, starts_eq, _, run_eq⟩ :=
    exists_starts_eq options elapsedUs arrivals f
  rw [run_eq]
  exact last.cleared_cycle (all last (by simp [starts_eq])) options _

end Flight

namespace Vehicle

variable {v : Vehicle}

theorem Cleared.fly (cleared : v.Cleared) (options : LoopOptions) (elapsedUs : Nat → Nat)
    {arrivals : List (List Input)} (benign : ∀ batch ∈ arrivals, ∀ input ∈ batch, input.Benign) :
    (v.fly options elapsedUs arrivals).2.vehicle.Cleared ∧
      ∀ e, (v.fly options elapsedUs arrivals).1 ≠ some (.error e) := by
  rw [fly_of_complete cleared.complete]
  exact Flight.cleared_run (f := v.takeoff) cleared options elapsedUs benign

theorem Cleared.undergo (cleared : v.Cleared) {trial : Trial} (benign : trial.Benign) :
    (v.undergo trial).Cleared := by
  cases trial with
  | execute command => exact Mixer.Cleared.execute cleared command
  | stopAll => exact Mixer.Cleared.stopAll cleared
  | fly options elapsedUs arrivals => exact (cleared.fly options elapsedUs benign).1
  | receive input => exact cleared.receive benign

theorem Cleared.undergoAll (cleared : v.Cleared) {trials : List Trial}
    (benign : ∀ trial ∈ trials, trial.Benign) : (trials.foldl Vehicle.undergo v).Cleared := by
  induction trials generalizing v with
  | nil => exact cleared
  | cons trial trials induction =>
    obtain ⟨first, rest⟩ := List.forall_mem_cons.mp benign
    exact induction (cleared.undergo first) rest

end Vehicle

/-- If arming succeeds, then nothing fails for as long as readiness and faults stay as they are:
whatever was done in the meantime, exactly the commands out of bounds are refused, the motors can be
stopped and the control loop ends without an error. -/
theorem Mixer.armAll_sufficient {m armed : Mixer} (reachable : m.Reachable) {clock : Nat → Nat}
    {before after : Bench} (success : m.armAll clock before = (.ok (), armed, after))
    (mailbox : Mailbox) (telemetry : Telemetry) {trials : List Trial}
    (benign : ∀ trial ∈ trials, trial.Benign) :
    let v := trials.foldl Vehicle.undergo ⟨armed, after, mailbox, telemetry⟩
    (∀ c, (v.mixer.execute c v.bench).1 =
        if c.InBounds then .ok () else .error .outOfRangeCommand) ∧
      (v.mixer.stopAll v.bench).1 = .ok () ∧
      ∀ options elapsedUs arrivals, (∀ batch ∈ arrivals, ∀ input ∈ batch, input.Benign) →
        ∀ e, (v.fly options elapsedUs arrivals).1 ≠ some (.error e) := by
  intro v
  have cleared : v.Cleared :=
    Vehicle.Cleared.undergoAll (armAll_cleared reachable.serviceable success) benign
  exact ⟨fun c => cleared.execute_outcome c, cleared.stopAll_outcome,
    fun options elapsedUs arrivals benign => (cleared.fly options elapsedUs benign).2⟩

/-- A quadcopter is armed, executes a command, is stopped, and is told to kill its motors. -/
theorem Mixer.armAll_sufficient_quad :
    ∃ armed after, Mixer.quad.armAll (fun _ => 0) { timer := .bench 4 } = (.ok (), armed, after) ∧
      let trials : List Trial :=
        [.execute ⟨0.5, 0.25, 0, -1⟩, .stopAll, .receive (.publish .idle .kill)]
      let v := trials.foldl Vehicle.undergo ⟨armed, after, {}, {}⟩
      (∀ trial ∈ trials, trial.Benign) ∧
        (v.mixer.execute ⟨2, 0, 0, 0⟩ v.bench).1 = .error .outOfRangeCommand ∧
        (v.mixer.stopAll v.bench).1 = .ok () ∧
        ∀ e, (v.fly ⟨50, none⟩ (fun _ => 0) [[.publish .idle .none]]).1 ≠ some (.error e) := by
  have accepted : (Mixer.quad.armAll (fun _ => 0) { timer := .bench 4 }).1 = .ok () := by rfl
  rcases success : Mixer.quad.armAll (fun _ => 0) { timer := .bench 4 } with ⟨result, armed, after⟩
  rw [success] at accepted
  subst accepted
  refine ⟨armed, after, rfl, ?_⟩
  intro trials v
  have benign : ∀ trial ∈ trials, trial.Benign := by
    simp [trials, Trial.Benign, Input.Benign]
  have sufficient := armAll_sufficient quad_reachable success {} {} benign
  refine ⟨benign, ?_, sufficient.2.1, sufficient.2.2 _ _ _ ?_⟩
  · exact (sufficient.1 _).trans (if_neg (by decide))
  · simp [Input.Benign]

end Multirotor
