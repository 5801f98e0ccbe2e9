import Multirotor.Allocation
import Multirotor.ControlLoop.Exit
import Multirotor.Protocol
import Multirotor.Telemetry
import Multirotor.Timer.Basic

/-!
# The journal

What the parts of the program report while they work.  An `Event` is a fact; its severity, the part
that reports it and its wording are functions of the event.
-/

namespace Multirotor

/-- How severe an event is. -/
inductive Severity where
  | debug
  | info
  | warn
  | error
  deriving DecidableEq

/-- The name of a severity in the journal. -/
def Severity.label : Severity → String
  | debug => "DEBUG"
  | info => "INFO"
  | warn => "WARN"
  | error => "ERROR"

/-- The part of the program that reports an event. -/
inductive Reporter where
  | program
  | esc
  | mixer
  | controlLoop
  | sweep
  | telemetry
  deriving DecidableEq

/-- The name of a reporter in the journal. -/
def Reporter.path : Reporter → String
  | program => "flight_controller"
  | esc => "flight_controller::output::motor_controller"
  | mixer => "flight_controller::output::motors_state_manager"
  | controlLoop => "flight_controller::control::control_loops"
  | sweep => "flight_controller::communication_interfaces::sweep"
  | telemetry => "flight_controller::telemetry"

/-- Something worth reporting. -/
inductive Event where
  | escConfigured (channel : UInt32) (protocol : Protocol) (timing : Timing)
  | escArming (channel : UInt32) (durationMs : UInt32)
  | escArmingRefused (channel : UInt32) (reason : WriteError)
  /-- After a refused arming pulse the stop was refused too. -/
  | escStopRefused (channel : UInt32) (reason : EscError)
  | mixerConfigured (geometry : Geometry) (policy : Normalization)
  /-- A motor took a slot; slots are counted from 1. -/
  | motorAttached (slot : Nat) (position? : Option Position) (channel : UInt32)
  | motorsArming (count : Nat) (durationMs : UInt32)
  | motorsArmed
  /-- A motor could not be stopped; motors are counted from 1. -/
  | motorStopFailed (number : Nat) (reason : EscError)
  | motorsKilled
  /-- Arming failed and the stop that follows failed too. -/
  | stopAfterFailureFailed (reason : MixerError)
  /-- A motor could not be released; motors are counted from 1. -/
  | motorReleaseFailed (number : Nat) (reason : EscError)
  | loopRefused (reason : MixerError)
  /-- A cycle left the motors as they were. -/
  | cycleSkipped (reason : MixerError) (command : Command)
  | motorFailed (reason : MixerError)
  /-- The stop after a motor failure failed too. -/
  | failSafeIncomplete (reason : MixerError)
  /-- The mixer refused a cycle for good. -/
  | cycleRejected (reason : MixerError)
  | sweepAxis (axis : Axis)
  | sweepFinished
  | telemetry (snapshot : Telemetry)
  | settingsRefused (reason : MixerError)
  | flightStarted (geometry : Geometry) (protocol : Protocol) (policy : Normalization)
  /-- The writes attempted and the last setting of each motor channel. -/
  | flightOutputs (attempts : Nat) (outputs : List (Option Write))
  | flightEnded (exit : Exit)
  | flightFailed (reason : FlightError)
  deriving DecidableEq

namespace Event

/-- How severe the event is. -/
def severity : Event → Severity
  | escConfigured .. | motorAttached .. => .debug
  | cycleSkipped .. => .warn
  | escArmingRefused .. | escStopRefused .. | motorStopFailed .. | stopAfterFailureFailed ..
  | motorReleaseFailed .. | loopRefused .. | motorFailed .. | failSafeIncomplete ..
  | cycleRejected .. | settingsRefused .. | flightFailed .. => .error
  | _ => .info

/-- The part of the program that reports the event. -/
def reporter : Event → Reporter
  | escConfigured .. | escArming .. | escArmingRefused .. | escStopRefused .. => .esc
  | mixerConfigured .. | motorAttached .. | motorsArming .. | motorsArmed | motorStopFailed ..
  | motorsKilled | stopAfterFailureFailed .. | motorReleaseFailed .. => .mixer
  | loopRefused .. | cycleSkipped .. | motorFailed .. | failSafeIncomplete ..
  | cycleRejected .. => .controlLoop
  | sweepAxis .. | sweepFinished => .sweep
  | telemetry .. => .telemetry
  | settingsRefused .. | flightStarted .. | flightOutputs .. | flightEnded ..
  | flightFailed .. => .program

/-- The event in words. -/
def message : Event → String
  | escConfigured channel protocol timing =>
    let least := timing.minPulse.text .plain
    let most := timing.maxPulse.text .plain
    let signal := s!"{protocol.name}, period {timing.periodUs}us, pulse {least}..{most}us"
    s!"ESC on channel {channel}: {signal}"
  | escArming channel durationMs => s!"Arming ESC on channel {channel} for {durationMs}ms"
  | escArmingRefused channel reason => s!"ESC on channel {channel} failed to arm: {reason.message}"
  | escStopRefused channel reason =>
    s!"ESC on channel {channel} could not be stopped: {reason.message}"
  | mixerConfigured geometry policy =>
    let airframe := s!"{geometry.name} with {geometry.motorCount} motors"
    s!"Mixer ready for {airframe}, {policy.text} normalization"
  | motorAttached slot position? channel =>
    let position := Diagnostic.option (position?.map Position.label)
    s!"Motor {slot} ({position}) on channel {channel}"
  | motorsArming count durationMs => s!"Arming {count} motors for {durationMs}ms"
  | motorsArmed => "All motors armed"
  | motorStopFailed number reason => s!"Failed to stop motor {number}: {reason.message}"
  | motorsKilled => "Killed motors"
  | stopAfterFailureFailed reason =>
    s!"Stopping motors after a failure failed too: {reason.message}"
  | motorReleaseFailed number reason => s!"Failed to release motor {number}: {reason.message}"
  | loopRefused reason => s!"Refusing to start the control loop: {reason.message}"
  | cycleSkipped reason command => s!"Skipping cycle, {reason.message}: {command.diagnostic}"
  | motorFailed reason => s!"Motor failure, stopping all motors: {reason.message}"
  | failSafeIncomplete reason => s!"Fail-safe stop incomplete: {reason.message}"
  | cycleRejected reason =>
    s!"Mixer rejected the cycle, leaving the control loop: {reason.message}"
  | sweepAxis axis => s!"Sweep: {axis.label}"
  | sweepFinished => "Sweep finished, killing motors"
  | telemetry snapshot => snapshot.text
  | settingsRefused reason => s!"Invalid configuration: {reason.message}"
  | flightStarted geometry protocol policy =>
    s!"Running {geometry.name} with {protocol.name} ESCs, {policy.text} normalization"
  | flightOutputs attempts outputs =>
    let last := Diagnostic.list (outputs.map fun w => Diagnostic.option (w.map Write.diagnostic))
    s!"{attempts} PWM writes, last outputs: {last}"
  | flightEnded exit => s!"Control loop ended: {exit.label}"
  | flightFailed reason => s!"Flight controller stopped: {reason.message}"

/-- The event as a line with its severity. -/
def line (e : Event) : String := e.severity.label ++ " " ++ e.message

end Event

end Multirotor
