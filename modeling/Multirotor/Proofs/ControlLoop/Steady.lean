import Multirotor.Proofs.ControlLoop.LatestCommand
import Multirotor.Proofs.ControlLoop.Preflight
import Multirotor.Proofs.Mixer.Smooth

/-!
# Flights without incident

A cleared vehicle that is only ever asked for commands within bounds flies smoothly: no cycle is
skipped, no write is refused, and the loop ends because all cycles were run or because it was told
to kill the motors.
-/

namespace Multirotor

/-- The input publishes a command within bounds, or it is a report of another part than the control
loop. -/
def Input.Calm : Input → Prop
  | .publish command _ => command.InBounds
  | .note event => event.reporter ≠ .controlLoop
  | .write _ | .setReady _ | .injectFault _ _ | .clearFaults => False

theorem Input.Calm.benign {input : Input} (calm : input.Calm) : input.Benign := by
  cases input <;> trivial

namespace Vehicle

variable {u v w : Vehicle}

/-- Everything went smoothly from one state of a vehicle to the other, and each motor has kept its
channel. -/
structure SmoothTo (v w : Vehicle) : Prop where
  bench : v.bench.Smooth w.bench
  channels : w.mixer.motors.map Esc.channel = v.mixer.motors.map Esc.channel

namespace SmoothTo

theorem refl (v : Vehicle) : v.SmoothTo v := ⟨.refl _, rfl⟩

theorem trans (first : u.SmoothTo v) (second : v.SmoothTo w) : u.SmoothTo w :=
  ⟨first.bench.trans second.bench, second.channels.trans first.channels⟩

end SmoothTo

/-- The mixer is cleared, and no command out of bounds waits in the mailbox. -/
structure Steady (v : Vehicle) : Prop where
  cleared : v.Cleared
  mailbox : v.mailbox.command.InBounds

theorem Steady.receive (steady : v.Steady) {input : Input} (calm : input.Calm) :
    (v.receive input).Steady ∧ v.SmoothTo (v.receive input) := by
  have cleared := steady.cleared.receive calm.benign
  cases input with
  | publish command flags => exact ⟨⟨cleared, calm⟩, .refl _, rfl⟩
  | note event => exact ⟨⟨cleared, steady.mailbox⟩, .log _ calm, rfl⟩
  | write | setReady | injectFault | clearFaults => exact calm.elim

theorem Steady.receiveAll (steady : v.Steady) {inputs : List Input}
    (calm : ∀ input ∈ inputs, input.Calm) :
    (v.receiveAll inputs).Steady ∧ v.SmoothTo (v.receiveAll inputs) := by
  induction inputs generalizing v with
  | nil => exact ⟨steady, .refl v⟩
  | cons input inputs induction =>
    obtain ⟨first, rest⟩ := List.forall_mem_cons.mp calm
    obtain ⟨received, smooth⟩ := steady.receive first
    obtain ⟨last, smooth_rest⟩ := induction received rest
    exact ⟨last, smooth.trans smooth_rest⟩

end Vehicle

namespace Flight

variable {f : Flight} {options : LoopOptions} {elapsedUs : Nat → Nat}

/-- The vehicle is steady, and the command applied last was within bounds. -/
structure Steady (f : Flight) : Prop where
  vehicle : f.vehicle.Steady
  command : f.command.InBounds

theorem Steady.applied_inBounds (steady : f.Steady) : f.applied.InBounds := by
  rw [applied, lookup]
  split
  · rename_i sample latest
    have same : sample.command = f.vehicle.mailbox.command := by
      rw [Mailbox.latest?] at latest
      split at latest <;> cases latest
      rfl
    rw [accept]
    split
    · exact steady.command
    · dsimp only
      exact same ▸ steady.vehicle.mailbox
  · exact steady.command

theorem smoothTo_finish {g : Flight} (smooth : f.vehicle.SmoothTo g.vehicle)
    (options : LoopOptions) (elapsed : Nat) :
    f.vehicle.SmoothTo (g.finish options elapsed).2.vehicle := by
  obtain ⟨pauses, same⟩ := g.finish_eq options elapsed
  rw [same]
  exact ⟨smooth.bench, smooth.channels⟩

/-- A steady cycle goes smoothly. -/
theorem Steady.cycle (steady : f.Steady) (options : LoopOptions) (elapsed : Nat) :
    f.vehicle.SmoothTo (f.cycle options elapsed).2.vehicle := by
  have inBounds := steady.applied_inBounds
  have cleared := steady.vehicle.cleared
  have executed := Mixer.Cleared.execute_outcome cleared f.applied
  have course := cycle_course cleared.complete cleared.serviceable options elapsed
  generalize (f.cycle options elapsed).1 = result at course
  generalize (f.cycle options elapsed).2 = g at course ⊢
  cases course with
  | kill =>
    have channels := Esc.map_channel_eq (f.vehicle.mixer.map_disarmed_stopAll f.vehicle.bench)
    rw [kill_snd]
    exact ⟨Mixer.Cleared.stopAll_smooth cleared, channels⟩
  | skip _ outOfBounds => exact absurd inBounds outOfBounds
  | execute =>
    obtain ⟨outputs, same⟩ := f.driven_mixer
    have channels := congrArg (·.motors.map Esc.channel) same
    apply smoothTo_finish
    exact ⟨Mixer.Cleared.execute_smooth cleared inBounds, channels⟩
  | fail _ _ failed =>
    rw [if_pos inBounds] at executed
    rw [execution, executed] at failed
    cases failed

/-- A steady flight that goes on stays steady and was not told to kill the motors. -/
theorem Steady.cycle_none (steady : f.Steady) {elapsed : Nat} {g : Flight}
    (goes_on : f.cycle options elapsed = (none, g)) :
    g.Steady ∧ g.vehicle.mailbox = f.vehicle.mailbox ∧ ¬ f.Killed := by
  have cleared := steady.vehicle.cleared
  have course := cycle_course cleared.complete cleared.serviceable options elapsed
  have after := (cleared_cycle cleared options elapsed).1
  rw [goes_on] at course after
  obtain ⟨command, _, mailbox, _, _⟩ := course.kept (.inl rfl)
  refine ⟨⟨⟨after, ?_⟩, ?_⟩, mailbox, (course.executed (.inl rfl)).1⟩
  · rw [mailbox]
    exact steady.vehicle.mailbox
  · rw [command]
    exact steady.applied_inBounds

/-- Every cycle of a flight that is steady and stays calm starts steadily, so none is skipped. -/
theorem Steady.starts (steady : f.Steady) {arrivals : List (List Input)}
    (calm : ∀ batch ∈ arrivals, ∀ input ∈ batch, input.Calm) :
    ∀ s ∈ starts options elapsedUs arrivals f, s.Steady ∧ f.vehicle.SmoothTo s.vehicle := by
  apply forall_mem_starts (P := fun s => s.Steady ∧ f.vehicle.SmoothTo s.vehicle)
    ⟨steady, .refl _⟩
  rintro s g elapsed ⟨steady, smooth⟩ goes_on batch mem
  have step := steady.cycle options elapsed
  rw [goes_on] at step
  obtain ⟨next, _⟩ := steady.cycle_none goes_on
  obtain ⟨received, smooth_batch⟩ := next.vehicle.receiveAll (calm batch mem)
  exact ⟨⟨received, next.command⟩, (smooth.trans step).trans smooth_batch⟩

theorem Steady.run (steady : f.Steady) (options : LoopOptions) (elapsedUs : Nat → Nat)
    {arrivals : List (List Input)} (calm : ∀ batch ∈ arrivals, ∀ input ∈ batch, input.Calm) :
    f.vehicle.SmoothTo (run options elapsedUs arrivals f).2.vehicle := by
  obtain ⟨earlier, last, starts_eq, _, run_eq⟩ :=
    exists_starts_eq options elapsedUs arrivals f
  have last_mem : last ∈ Flight.starts options elapsedUs arrivals f := by simp [starts_eq]
  obtain ⟨last_steady, smooth⟩ := steady.starts calm last last_mem
  rw [run_eq]
  exact smooth.trans (last_steady.cycle options _)

/-- A steady flight that still goes on has received everything and was not told to kill the
motors. -/
theorem Steady.run_none (steady : f.Steady) {arrivals : List (List Input)}
    (calm : ∀ batch ∈ arrivals, ∀ input ∈ batch, input.Calm) {g : Flight}
    (goes_on : Flight.run options elapsedUs arrivals f = (none, g)) :
    g.vehicle.mailbox = f.vehicle.mailbox.publishAll (publicationsOf arrivals.flatten) ∧
      ¬ g.Killed := by
  induction arrivals generalizing f with
  | nil =>
    rw [Flight.run] at goes_on
    rcases last : f.cycle options (elapsedUs f.cycles) with ⟨_ | result, h⟩ <;>
      simp only [last] at goes_on <;> cases goes_on
    obtain ⟨_, mailbox, alive⟩ := steady.cycle_none last
    exact ⟨mailbox, by rwa [Killed, mailbox]⟩
  | cons batch rest induction =>
    obtain ⟨calm_batch, calm_rest⟩ := List.forall_mem_cons.mp calm
    rw [Flight.run] at goes_on
    rcases first : f.cycle options (elapsedUs f.cycles) with ⟨_ | result, h⟩ <;>
      simp only [first] at goes_on
    · obtain ⟨next, kept, _⟩ := steady.cycle_none first
      have received : (h.receive batch).Steady :=
        ⟨(next.vehicle.receiveAll calm_batch).1, next.command⟩
      obtain ⟨mailbox, alive⟩ := induction received calm_rest goes_on
      refine ⟨?_, alive⟩
      rw [mailbox, Flight.receive, Vehicle.receiveAll_mailbox, kept, List.flatten_cons,
        publicationsOf_append]
      exact List.foldl_append.symm
    · cases goes_on

end Flight

/-- A steady vehicle flies smoothly and without an error as long as it stays calm. -/
theorem Vehicle.Steady.fly {v : Vehicle} (steady : v.Steady) (options : LoopOptions)
    (elapsedUs : Nat → Nat) {arrivals : List (List Input)}
    (calm : ∀ batch ∈ arrivals, ∀ input ∈ batch, input.Calm) :
    let outcome := v.fly options elapsedUs arrivals
    v.SmoothTo outcome.2.vehicle ∧ outcome.2.vehicle.Cleared ∧
      ∀ e, outcome.1 ≠ some (.error e) := by
  intro outcome
  have flown := steady.cleared.fly options elapsedUs fun batch mem input input_mem =>
    (calm batch mem input input_mem).benign
  refine ⟨?_, flown⟩
  have takeoff : v.takeoff.Steady := ⟨⟨steady.cleared, steady.mailbox⟩, Command.idle_inBounds⟩
  have smooth := takeoff.run options elapsedUs calm
  rw [← fly_of_complete steady.cleared.complete] at smooth
  exact ⟨smooth.bench, smooth.channels⟩

end Multirotor
