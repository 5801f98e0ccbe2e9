import Multirotor.Esc

/-!
# The mixer

A `Mixer` owns the ESCs of one airframe and turns each command into one speed per motor.  Motors are
attached in the slot order of the geometry, and commands are executed only when every slot is taken.
As with ESCs, what an operation did before it failed stays done: a cycle that fails at a motor
leaves the new speeds on the motors before it, and stopping and releasing go on past failures so
that every motor is tried.
-/

namespace Multirotor

/-- The control allocator of one airframe. -/
structure Mixer where
  /-- The airframe. -/
  geometry : Geometry
  /-- What happens to demands that do not fit. -/
  policy : Normalization
  /-- The attached motors in slot order. -/
  motors : List Esc
  /-- The speed last given to each motor: empty before the first executed command and after a
  stop, and 0 for motors that no command has reached since. -/
  outputs : List Binary32
  /-- Whether the mixer is still in use. -/
  lifecycle : Lifecycle
  deriving DecidableEq

namespace Mixer

/-- Sets up a mixer without motors. -/
def configure (geometry : Geometry) (policy : Normalization) (bench : Bench) :
    Except MixerError Mixer × Bench :=
  match geometry.validate, policy.validate with
  | .error e, _ => (.error e, bench)
  | .ok (), .error e => (.error e, bench)
  | .ok (), .ok () =>
    (.ok ⟨geometry, policy, [], [], .initialized⟩, bench.log (.mixerConfigured geometry policy))

/-- Sets up a mixer for the geometry of a numeric code. -/
def configureByCode (code : UInt8) (policy : Normalization) (bench : Bench) :
    Except MixerError Mixer × Bench :=
  match Geometry.ofCode code with
  | .error e => (.error e, bench)
  | .ok geometry => configure geometry policy bench

def expectedCount (m : Mixer) : Nat := m.geometry.motorCount

/-- The position of the next free slot. -/
def nextPosition? (m : Mixer) : Option Position := m.geometry.positions[m.motors.length]?

/-- Attaches a motor to the next free slot.  A motor that is refused goes back to the caller with
the reason. -/
def attach (m : Mixer) (motor : Esc) (bench : Bench) :
    Except (MixerError × Esc) Unit × Mixer × Bench :=
  match m.lifecycle, motor.lifecycle with
  | .uninitialized, _ => (.error (.notInitialized, motor), m, bench)
  | .initialized, .uninitialized => (.error (.actuatorNotInitialized, motor), m, bench)
  | .initialized, .initialized =>
    if m.expectedCount ≤ m.motors.length then (.error (.capacityExceeded, motor), m, bench)
    -- the slots are an array of fixed size
    else if maxMotors ≤ m.motors.length then (.error (.capacityExceeded, motor), m, bench)
    else
      (.ok (), { m with motors := m.motors ++ [motor] },
        bench.log (.motorAttached (m.motors.length + 1) m.nextPosition? motor.channel))

/-- Attaches a motor only if its position is that of the next free slot. -/
def attachAt (m : Mixer) (position : Position) (motor : Esc) (bench : Bench) :
    Except (MixerError × Esc) Unit × Mixer × Bench :=
  match m.lifecycle, m.nextPosition? with
  | .uninitialized, _ => (.error (.notInitialized, motor), m, bench)
  | .initialized, none => (.error (.capacityExceeded, motor), m, bench)
  | .initialized, some expected =>
    if expected = position then m.attach motor bench
    else (.error (.motorOrderMismatch expected position, motor), m, bench)

/-- Accepts a mixer in use with a motor in every slot. -/
def checkComplete (m : Mixer) : Except MixerError Unit :=
  match m.lifecycle with
  | .uninitialized => .error .notInitialized
  | .initialized =>
    if m.motors.length = m.expectedCount then .ok ()
    else .error (.countMismatch m.expectedCount m.motors.length)

/-- Gives speeds to motors in order until one fails.  `index` is the index of the first motor.
Returns the outputs with the new speeds of the motors that took theirs. -/
def driveFrom (index : Nat) :
    List Esc → List Binary32 → List Binary32 → Bench →
      Except MixerError Unit × List Binary32 × Bench
  | motor :: motors, speed :: speeds, output :: outputs, bench =>
    match motor.drive speed bench with
    | (.error source, bench) => (.error (.actuatorFailure index source), output :: outputs, bench)
    | (.ok (), bench) =>
      match driveFrom (index + 1) motors speeds outputs bench with
      | (result, outputs, bench) => (result, speed :: outputs, bench)
  | _, _, outputs, bench => (.ok (), outputs, bench)

/-- The outputs before a command that has `count` speeds, if there is room for as many. -/
def preparedOutputs? (m : Mixer) (count : Nat) : Option (List Binary32) :=
  if m.outputs.length = count then some m.outputs
  else if count ≤ maxMotors then some (List.replicate count 0)
  else none

/-- Runs one command through the allocation and drives every motor in slot order. -/
def execute (m : Mixer) (command : Command) (bench : Bench) :
    Except MixerError Unit × Mixer × Bench :=
  match m.checkComplete with
  | .error e => (.error e, m, bench)
  | .ok () =>
    if command.InBounds then
      let speeds := allocate m.geometry.table m.policy command
      match m.preparedOutputs? speeds.length with
      | none => (.error .capacityExceeded, { m with outputs := [] }, bench)
      | some outputs =>
        match driveFrom 0 m.motors speeds outputs bench with
        | (result, outputs, bench) => (result, { m with outputs := outputs }, bench)
    else (.error .outOfRangeCommand, m, bench)

/-- Applies an operation to every motor in slot order, whatever fails, and reports each failure.
Returns the first failure with the index of its motor. -/
def forEachFrom (index : Nat) (operation : Esc → Bench → Except EscError Unit × Esc × Bench)
    (report : Nat → EscError → Event) :
    List Esc → Bench → Except MixerError Unit × List Esc × Bench
  | [], bench => (.ok (), [], bench)
  | motor :: motors, bench =>
    match operation motor bench with
    | (.ok (), motor, bench) =>
      match forEachFrom (index + 1) operation report motors bench with
      | (result, motors, bench) => (result, motor :: motors, bench)
    | (.error source, motor, bench) =>
      match forEachFrom (index + 1) operation report motors
          (bench.log (report (index + 1) source)) with
      | (_, motors, bench) => (.error (.actuatorFailure index source), motor :: motors, bench)

/-- Drives every motor to zero output.  Tries all motors and reports the first failure. -/
def stopAll (m : Mixer) (bench : Bench) : Except MixerError Unit × Mixer × Bench :=
  match m.lifecycle with
  | .uninitialized => (.error .notInitialized, m, bench)
  | .initialized =>
    match forEachFrom 0 Esc.stop .motorStopFailed m.motors bench with
    | (.ok (), motors, bench) =>
      (.ok (), { m with motors := motors, outputs := [] }, bench.log .motorsKilled)
    | (.error e, motors, bench) => (.error e, { m with motors := motors, outputs := [] }, bench)

/-- Starts arming motors in order until one refuses; `clock` gives the time at which each motor
starts, by index. -/
def beginArmFrom (index : Nat) (clock : Nat → Nat) :
    List Esc → Bench → Except MixerError Unit × List Esc × Bench
  | [], bench => (.ok (), [], bench)
  | motor :: motors, bench =>
    match motor.beginArm (clock index) bench with
    | (.error source, motor, bench) =>
      (.error (.actuatorFailure index source), motor :: motors, bench)
    | (.ok (), motor, bench) =>
      match beginArmFrom (index + 1) clock motors bench with
      | (result, motors, bench) => (result, motor :: motors, bench)

/-- The longest arming duration among motors. -/
def longestArmMs (motors : List Esc) : UInt32 :=
  motors.foldl (fun longest motor => max longest motor.armMs) 0

/-- Arms every motor with one shared wait.  If a motor refuses the arming pulse every motor is
stopped. -/
def armAll (m : Mixer) (clock : Nat → Nat) (bench : Bench) :
    Except MixerError Unit × Mixer × Bench :=
  match m.checkComplete with
  | .error e => (.error e, m, bench)
  | .ok () =>
    match beginArmFrom 0 clock m.motors bench with
    | (.error e, motors, bench) =>
      match { m with motors := motors }.stopAll bench with
      | (.ok (), m, bench) => (.error e, m, bench)
      | (.error stopError, m, bench) =>
        (.error e, m, bench.log (.stopAfterFailureFailed stopError))
    | (.ok (), motors, bench) =>
      let durationMs := longestArmMs motors
      (.ok (), { m with motors := motors.map Esc.finishArm },
        ((bench.log (.motorsArming motors.length durationMs)).hold durationMs).log .motorsArmed)

/-- Stops and releases every motor and gives the mixer up.  Motors whose stop is refused stay
attached and the mixer stays in use, so that the rest can be tried again. -/
def release (m : Mixer) (bench : Bench) : Except MixerError Unit × Mixer × Bench :=
  match m.lifecycle with
  | .uninitialized => (.error .notInitialized, m, bench)
  | .initialized =>
    match forEachFrom 0 Esc.release .motorReleaseFailed m.motors bench with
    | (result, motors, bench) =>
      let kept := motors.filter fun motor => motor.lifecycle = .initialized
      (result,
        { m with
          motors := kept
          outputs := []
          lifecycle := match result with
            | .ok () => .uninitialized
            | .error _ => m.lifecycle },
        bench)

end Mixer

end Multirotor
