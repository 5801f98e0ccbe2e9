import Multirotor.Diagnostic
import Multirotor.Position

/-!
# Faults

What can go wrong on each layer: a write to the PWM device, an operation of one ESC, an operation of
the mixer, and a name or code that stands for nothing.  Each fault has a `label`, a `message` for
people and a `diagnostic` text that shows its contents.
-/

namespace Multirotor

/-- Why the PWM device refused a write. -/
inductive WriteError where
  | notReady
  /-- The period needs more timer ticks than the counter has. -/
  | timerOverflow
  | channelUnavailable (channel : UInt32)
  | writeFailed
  deriving DecidableEq

namespace WriteError

def label : WriteError → String
  | notReady => "NotReady"
  | timerOverflow => "TimerOverflow"
  | channelUnavailable _ => "ChannelUnavailable"
  | writeFailed => "WriteFailed"

def message : WriteError → String
  | notReady => "PWM device is not ready"
  | timerOverflow => "timer cannot represent the requested period"
  | channelUnavailable channel => s!"PWM channel {channel} is not available"
  | writeFailed => "PWM register write failed"

def diagnostic (e : WriteError) : String :=
  match e with
  | channelUnavailable channel => Diagnostic.variant e.label [toString channel]
  | _ => e.label

end WriteError

/-- Why an ESC operation failed. -/
inductive EscError where
  | deviceNotReady
  | invalidProtocol (code : UInt8)
  /-- The pulse offsets, in percent, leave nothing of the pulse range. -/
  | invalidOffset (min max : UInt8)
  /-- The ESC was released. -/
  | notInitialized
  /-- The speed is no number of the unit interval. -/
  | outOfRangeCommand
  /-- The timer cannot represent the period of the protocol. -/
  | timerOverflow
  /-- The device refused a speed for another reason. -/
  | hardware (cause : WriteError)
  | stopFailed (cause : WriteError)
  | armingFailed (cause : WriteError)
  /-- Arming was asked about before it began. -/
  | armingNotStarted
  deriving DecidableEq

namespace EscError

/-- What a refused speed means for the ESC. -/
def ofWrite : WriteError → EscError
  | .timerOverflow => timerOverflow
  | .notReady => deviceNotReady
  | cause => hardware cause

def label : EscError → String
  | deviceNotReady => "DeviceNotReady"
  | invalidProtocol _ => "InvalidProtocol"
  | invalidOffset _ _ => "InvalidOffset"
  | notInitialized => "NotInitialized"
  | outOfRangeCommand => "OutOfRangeCommand"
  | timerOverflow => "TimerOverflow"
  | hardware _ => "Hardware"
  | stopFailed _ => "StopFailed"
  | armingFailed _ => "ArmingFailed"
  | armingNotStarted => "ArmingNotStarted"

def message : EscError → String
  | deviceNotReady => "PWM device is not ready"
  | invalidProtocol code => s!"unknown ESC protocol code {code}"
  | invalidOffset min max => s!"pulse offsets of {min}% and {max}% leave no usable pulse range"
  | notInitialized => "ESC is not initialized"
  | outOfRangeCommand => "ESC speed outside [0.0, 1.0]"
  | timerOverflow => "timer overflow, protocol period does not fit the PWM timer"
  | hardware cause => s!"PWM write failed: {cause.message}"
  | stopFailed cause => s!"could not stop ESC output: {cause.message}"
  | armingFailed cause => s!"arming failed: {cause.message}"
  | armingNotStarted => "ESC is not being armed"

def diagnostic (e : EscError) : String :=
  match e with
  | invalidProtocol code => Diagnostic.variant e.label [toString code]
  | invalidOffset min max =>
    Diagnostic.record e.label [("min", toString min), ("max", toString max)]
  | hardware cause | stopFailed cause | armingFailed cause =>
    Diagnostic.variant e.label [cause.diagnostic]
  | _ => e.label

end EscError

/-- Why a mixer operation failed. -/
inductive MixerError where
  /-- The mixer was released. -/
  | notInitialized
  /-- The geometry is unknown or its factor table is unusable. -/
  | invalidGeometry
  /-- A static thrust weight above 100 percent. -/
  | invalidNormalization (weight : UInt8)
  /-- An ESC that was released cannot join. -/
  | actuatorNotInitialized
  | outOfRangeCommand
  /-- An ESC failed; `motor` is its index among the attached motors. -/
  | actuatorFailure (motor : Nat) (source : EscError)
  | capacityExceeded
  | countMismatch (expected actual : Nat)
  /-- The motor was declared for another position than the next free one. -/
  | motorOrderMismatch (expected got : Position)
  deriving DecidableEq

namespace MixerError

def label : MixerError → String
  | notInitialized => "NotInitialized"
  | invalidGeometry => "InvalidGeometry"
  | invalidNormalization _ => "InvalidNormalization"
  | actuatorNotInitialized => "ActuatorNotInitialized"
  | outOfRangeCommand => "OutOfRangeCommand"
  | actuatorFailure _ _ => "ActuatorFailure"
  | capacityExceeded => "CapacityExceeded"
  | countMismatch _ _ => "CountMismatch"
  | motorOrderMismatch _ _ => "MotorOrderMismatch"

def message : MixerError → String
  | notInitialized => "mixer is not initialized"
  | invalidGeometry => "unknown or incomplete mixer geometry"
  | invalidNormalization weight => s!"static thrust weight {weight}% is outside 0..=100"
  | actuatorNotInitialized => "motor added to the mixer is not initialized"
  | outOfRangeCommand => "mixer input outside bounds"
  | actuatorFailure motor source => s!"motor {motor} failed: {source.message}"
  | capacityExceeded => "geometry already has all its motors"
  | countMismatch expected actual => s!"geometry needs {expected} motors, {actual} configured"
  | motorOrderMismatch expected got => s!"next motor slot is {expected.label}, got {got.label}"

def diagnostic (e : MixerError) : String :=
  match e with
  | invalidNormalization weight => Diagnostic.variant e.label [toString weight]
  | actuatorFailure motor source =>
    Diagnostic.record e.label [("motor", toString motor), ("source", source.diagnostic)]
  | countMismatch expected actual =>
    Diagnostic.record e.label [("expected", toString expected), ("actual", toString actual)]
  | motorOrderMismatch expected got =>
    Diagnostic.record e.label [("expected", expected.label), ("got", got.label)]
  | _ => e.label

/-- The ESC fault behind a mixer fault. -/
def source? : MixerError → Option EscError
  | actuatorFailure _ source => some source
  | _ => none

/-- Faults after which the next cycle may succeed with unchanged outputs. -/
def IsRecoverable (e : MixerError) : Prop := e = outOfRangeCommand

instance (e : MixerError) : Decidable e.IsRecoverable := inferInstanceAs (Decidable (_ = _))

/-- Faults that demand every motor to be stopped before anything else happens. -/
def RequiresFailSafe (e : MixerError) : Prop := e.source?.isSome = true

instance (e : MixerError) : Decidable e.RequiresFailSafe := inferInstanceAs (Decidable (_ = _))

end MixerError

/-- Why a flight broke off. -/
inductive FlightError where
  | esc (reason : EscError)
  | mixer (reason : MixerError)
  deriving DecidableEq

def FlightError.message : FlightError → String
  | esc reason => reason.message
  | mixer reason => reason.message

/-- A name in the settings that stands for nothing, with the text as it was given. -/
inductive UnknownName where
  | geometry (text : String)
  | protocol (text : String)
  | normalization (text : String)
  deriving DecidableEq

def UnknownName.message : UnknownName → String
  | geometry text => s!"unknown mixer geometry '{text}'"
  | protocol text => s!"unknown ESC protocol '{text}'"
  | normalization text => s!"unknown normalization policy '{text}'"

end Multirotor
