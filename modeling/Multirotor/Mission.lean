import Multirotor.ControlLoop.Basic
import Multirotor.Settings
import Multirotor.Sweep

/-!
# Missions

A mission brings the motors of an airframe up, arms them, flies one sweep through the control loop
and shuts the motors down.  The sweep runs beside the loop, so how its commands fall between the
cycles is a parameter: a schedule lists what arrives before the first cycle and after each cycle.
-/

namespace Multirotor

/-- A flight to be made. -/
structure Mission where
  /-- The settings of the vehicle. -/
  settings : Settings
  /-- Commands per axis in the sweep. -/
  sweepSteps : UInt16
  /-- The loop ends after this many cycles; without a limit it ends with the sweep. -/
  maxCycles? : Option Nat
  deriving DecidableEq

namespace Mission

/-- The number of commands in the sweep: the steps on each of the four axes. -/
def sweepLength (m : Mission) : Nat := m.sweepSteps.toNat * 4

def sweep (m : Mission) : Sweep := .ofSteps m.sweepSteps (some m.sweepLength)

/-- The schedule of a sweep that keeps pace with the control loop, one command after each cycle, as
far as the loop can go: until the sweep has ended or all cycles were run. -/
def schedule (m : Mission) : List (List Input) :=
  let rounds := m.sweepLength + 1
  m.sweep.transmission ((m.maxCycles?.map (min rounds)).getD rounds)

def loopOptions (m : Mission) : LoopOptions := ⟨m.settings.loopPeriodMs, m.maxCycles?⟩

/-- Sets up and attaches the motors of the given channels and positions until one fails. -/
def attachMotors (settings : Settings) :
    List (UInt32 × Position) → Mixer → Bench → Except FlightError Unit × Mixer × Bench
  | [], mixer, bench => (.ok (), mixer, bench)
  | (channel, position) :: slots, mixer, bench =>
    match Esc.configure channel settings.protocol settings.esc bench with
    | (.error e, bench) => (.error (.esc e), mixer, bench)
    | (.ok motor, bench) =>
      match mixer.attachAt position motor bench with
      | (.error (e, _), mixer, bench) => (.error (.mixer e), mixer, bench)
      | (.ok (), mixer, bench) => attachMotors settings slots mixer bench

/-- Brings all motors up and arms them.  `clock` gives the time at which each motor starts to
arm. -/
def bringUp (settings : Settings) (clock : Nat → Nat) (bench : Bench) :
    Except FlightError Mixer × Bench :=
  match Mixer.configure settings.geometry settings.policy bench with
  | (.error e, bench) => (.error (.mixer e), bench)
  | (.ok mixer, bench) =>
    let slots := settings.activeChannels.zip settings.geometry.positions
    match attachMotors settings slots mixer bench with
    | (.error e, _, bench) => (.error e, bench)
    | (.ok (), mixer, bench) =>
      match mixer.armAll clock bench with
      | (.error e, _, bench) => (.error (.mixer e), bench)
      | (.ok (), mixer, bench) => (.ok mixer, bench)

/-- Releases the motors after the control loop has ended. -/
def shutDown (exit : Exit) (mixer : Mixer) (bench : Bench) : Except FlightError Exit × Bench :=
  match mixer.release bench with
  | (.error e, _, bench) => (.error (.mixer e), bench)
  | (.ok (), _, bench) => (.ok exit, bench)

/-- Flies the mission with a schedule.  Cycle `k` takes `elapsedUs k`.  The result is `none` if the
control loop is still running at the end of the schedule. -/
def fly (m : Mission) (clock elapsedUs : Nat → Nat) (schedule : List (List Input)) (bench : Bench) :
    Option (Except FlightError Exit) × Bench :=
  match bringUp m.settings clock bench with
  | (.error e, bench) => (some (.error e), bench)
  | (.ok mixer, bench) =>
    let vehicle : Vehicle := { mixer := mixer, bench := bench }
    let ready := vehicle.receiveAll (schedule.headD [])
    match ready.fly m.loopOptions elapsedUs schedule.tail with
    | (none, flight) => (none, flight.vehicle.bench)
    | (some (.error e), flight) => (some (.error (.mixer e)), flight.vehicle.bench)
    | (some (.ok exit), flight) =>
      match shutDown exit flight.vehicle.mixer flight.vehicle.bench with
      | (result, bench) => (some result, bench)

/-- The bench on which a mission is flown: a timer with a channel for every slot. -/
def freshBench : Bench := { timer := .bench 6 }

/-- The last setting of each motor channel. -/
def lastOutputs (m : Mission) (timer : Timer) : List (Option Write) :=
  m.settings.activeChannels.map timer.output?

/-- Flies the mission on a fresh bench with the sweep in pace, and adds its outcome to the
journal. -/
def report (m : Mission) (clock elapsedUs : Nat → Nat) : Option (Except FlightError Exit) × Bench :=
  let s := m.settings
  let start := freshBench.log (.flightStarted s.geometry s.protocol s.policy)
  match m.fly clock elapsedUs m.schedule start with
  | (some (.ok exit), bench) =>
    let outputs := Event.flightOutputs bench.timer.attempts.size (m.lastOutputs bench.timer)
    (some (.ok exit), (bench.log outputs).log (.flightEnded exit))
  | (some (.error e), bench) => (some (.error e), bench.log (.flightFailed e))
  | (none, bench) => (none, bench)

end Mission

end Multirotor
