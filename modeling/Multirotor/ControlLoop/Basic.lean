import Multirotor.ControlLoop.Exit
import Multirotor.Vehicle

/-!
# The control loop

The periodic task that reads the latest command, runs the mixer, publishes telemetry and waits for
the rest of the period.  Without a new command the previous one is applied again.  A command out of
bounds skips the cycle, a motor failure stops every motor and ends the loop, and a mixer that is not
fully configured never starts.

What other tasks do in the meantime is a list of arrivals, one batch after each cycle that does not
end the loop.  `Flight.run` follows the loop as long as there are batches, so a loop without a cycle
limit is described by its runs over longer and longer lists.
-/

namespace Multirotor

structure LoopOptions where
  /-- The length of a cycle in milliseconds. -/
  periodMs : UInt32
  /-- The loop ends after this many cycles; without a limit it runs until it is told to stop. -/
  maxCycles? : Option Nat
  deriving DecidableEq

/-- The length of a cycle in microseconds. -/
def LoopOptions.periodUs (o : LoopOptions) : Nat := o.periodMs.toNat * 1000

/-- What could be seen when a cycle ended and the loop waited. -/
structure Pause where
  /-- The wait asked for, in microseconds. -/
  waitUs : UInt32
  /-- The telemetry at that time. -/
  telemetry : Telemetry
  /-- The number of writes attempted so far. -/
  attempts : Nat
  deriving DecidableEq

/-- The control loop at the start of a cycle. -/
structure Flight where
  /-- The vehicle under control. -/
  vehicle : Vehicle
  /-- The command applied last. -/
  command : Command := .idle
  /-- The sequence number of that command, 0 before the first. -/
  sequence : UInt32 := 0
  /-- The number of cycles run. -/
  cycles : Nat := 0
  /-- The waits so far, oldest first. -/
  pauses : Array Pause := #[]
  deriving DecidableEq

namespace Flight

/-- Takes over a command that was not applied yet. -/
def accept (f : Flight) (sample : Sample) : Flight :=
  if sample.sequence = f.sequence then f
  else { f with command := sample.command, sequence := sample.sequence }

/-- Marks the motors as no longer under the control of the loop. -/
def disarm (f : Flight) : Flight := { f with vehicle.telemetry.armed := false }

def log (f : Flight) (event : Event) : Flight :=
  { f with vehicle.bench := f.vehicle.bench.log event }

def stopAll (f : Flight) : Except MixerError Unit × Flight :=
  match f.vehicle.mixer.stopAll f.vehicle.bench with
  | (result, mixer, bench) =>
    (result, { f with vehicle.mixer := mixer, vehicle.bench := bench })

/-- Ends the loop because the command source asks for it. -/
def kill (f : Flight) : Except MixerError Exit × Flight :=
  match f.disarm.stopAll with
  | (.ok (), f) => (.ok .killed, f)
  | (.error e, f) => (.error e, f)

/-- Ends the loop because a motor failed. -/
def failSafe (f : Flight) (e : MixerError) : Flight :=
  match (f.log (.motorFailed e)).disarm.stopAll with
  | (.ok (), f) => f
  | (.error stopError, f) => f.log (.failSafeIncomplete stopError)

/-- Publishes what an executed command did. -/
def publishPower (f : Flight) : Flight :=
  let telemetry := f.vehicle.telemetry.storePower f.vehicle.mixer.outputs
  { f with vehicle.telemetry := { telemetry with throttle := f.command.thrust.percent } }

def skip (f : Flight) (e : MixerError) : Flight :=
  let skipped := f.vehicle.telemetry.skipped + 1
  { f.log (.cycleSkipped e f.command) with
    vehicle.telemetry := { f.vehicle.telemetry with skipped := skipped } }

/-- Applies the command at hand.  An error ends the loop. -/
def actuate (f : Flight) : Except MixerError Unit × Flight :=
  match f.vehicle.mixer.execute f.command f.vehicle.bench with
  | (result, mixer, bench) =>
    let f := { f with vehicle.mixer := mixer, vehicle.bench := bench }
    match result with
    | .ok () => (.ok (), f.publishPower)
    | .error e =>
      if e.IsRecoverable then (.ok (), f.skip e)
      else if e.RequiresFailSafe then (.error e, f.failSafe e)
      else (.error e, (f.log (.cycleRejected e)).disarm)

/-- Counts a cycle that took `elapsedUs`. -/
def countCycle (f : Flight) (elapsedUs : Nat) : Flight :=
  { f with
    vehicle.telemetry := f.vehicle.telemetry.storeExecTime elapsedUs
    cycles := f.cycles + 1 }

/-- Waits for the rest of the period after a cycle that took `elapsedUs`, if there is a rest.  The
wait is counted in 32 bits. -/
def wait (f : Flight) (options : LoopOptions) (elapsedUs : Nat) : Flight :=
  if elapsedUs < options.periodUs then
    let pause : Pause :=
      ⟨UInt32.ofNat (options.periodUs - elapsedUs), f.vehicle.telemetry,
        f.vehicle.bench.timer.attempts.size⟩
    { f with pauses := f.pauses.push pause }
  else f

/-- One cycle that takes `elapsedUs`, with the wait behind it.  The result is `none` if the loop
goes on. -/
def cycle (options : LoopOptions) (elapsedUs : Nat) (f : Flight) :
    Option (Except MixerError Exit) × Flight :=
  match f.vehicle.mailbox.latest? with
  | some sample =>
    if sample.flags.Contains .kill then
      match f.kill with
      | (result, f) => (some result, f)
    else work (f.accept sample)
  | none => work f
where
  /-- The part of a cycle that applies the command. -/
  work (f : Flight) : Option (Except MixerError Exit) × Flight :=
    match f.actuate with
    | (.error e, f) => (some (.error e), f)
    | (.ok (), f) =>
      let f := f.countCycle elapsedUs
      if options.maxCycles?.any (· ≤ f.cycles) then (some (.ok .cyclesCompleted), f)
      else (none, f.wait options elapsedUs)

def receive (f : Flight) (inputs : List Input) : Flight :=
  { f with vehicle := f.vehicle.receiveAll inputs }

/-- Runs cycles until the loop ends or no batch of arrivals is left; cycle `k` takes `elapsedUs k`.
The result is `none` if the loop is still running. -/
def run (options : LoopOptions) (elapsedUs : Nat → Nat) (arrivals : List (List Input))
    (f : Flight) : Option (Except MixerError Exit) × Flight :=
  match f.cycle options (elapsedUs f.cycles) with
  | (some result, f) => (some result, f)
  | (none, f) =>
    match arrivals with
    | [] => (none, f)
    | batch :: rest => run options elapsedUs rest (f.receive batch)

/-- A run over more batches goes on from where the run over the first ones stands. -/
theorem run_append (options : LoopOptions) (elapsedUs : Nat → Nat)
    (before after : List (List Input)) (batch : List Input) (f : Flight) :
    run options elapsedUs (before ++ batch :: after) f =
      match run options elapsedUs before f with
      | (some result, f) => (some result, f)
      | (none, f) => run options elapsedUs after (f.receive batch) := by
  induction before generalizing f with
  | nil =>
    rw [List.nil_append, run, run.eq_def options elapsedUs []]
    rcases f.cycle options (elapsedUs f.cycles) with ⟨_ | result, g⟩ <;> rfl
  | cons first before induction =>
    rw [List.cons_append, run, run.eq_def options elapsedUs (first :: before)]
    rcases f.cycle options (elapsedUs f.cycles) with ⟨_ | result, g⟩
    · exact induction (g.receive first)
    · rfl

end Flight

/-- Starts the control loop on a vehicle and runs it. -/
def Vehicle.fly (v : Vehicle) (options : LoopOptions) (elapsedUs : Nat → Nat)
    (arrivals : List (List Input)) : Option (Except MixerError Exit) × Flight :=
  match v.mixer.checkComplete with
  | .error e => (some (.error e), { vehicle := { v with bench := v.bench.log (.loopRefused e) } })
  | .ok () =>
    Flight.run options elapsedUs arrivals { vehicle := { v with telemetry.armed := true } }

end Multirotor
