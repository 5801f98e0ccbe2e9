import Multirotor.CommandLine.Integer
import Multirotor.Settings

/-!
# Arguments

What a user may ask for on the command line: the options with their names and values, what they
change in the settings, and how a value of each option is read.
-/

namespace Multirotor

/-- An option of the command line; each of them takes a value. -/
inductive Parameter where
  | geometry
  | protocol
  | normalization
  | thrustWeight
  | cycles
  | armDurationMs
  | sweepSteps
  deriving DecidableEq

namespace Parameter

/-- All options in the order of the help text. -/
def all : List Parameter :=
  [geometry, protocol, normalization, thrustWeight, cycles, armDurationMs, sweepSteps]

/-- The name of an option behind its two hyphens. -/
def name : Parameter → String
  | geometry => "geometry"
  | protocol => "protocol"
  | normalization => "normalization"
  | thrustWeight => "thrust-weight"
  | cycles => "cycles"
  | armDurationMs => "arm-duration-ms"
  | sweepSteps => "sweep-steps"

/-- What stands for the value of an option in messages. -/
def placeholder : Parameter → String
  | geometry => "GEOMETRY"
  | protocol => "PROTOCOL"
  | normalization => "NORMALIZATION"
  | thrustWeight => "THRUST_WEIGHT"
  | cycles => "CYCLES"
  | armDurationMs => "ARM_DURATION_MS"
  | sweepSteps => "SWEEP_STEPS"

/-- What an option is for. -/
def description : Parameter → String
  | geometry => "Motor layout: quad-x, quad-cross, hex-x or hex-cross"
  | protocol => "ESC signal: pwm, oneshot125, oneshot42 or multishot"
  | normalization => "Saturation handling: clamp-and-shift, headroom or static"
  | thrustWeight => "Thrust share of full scale for the static policy, in percent"
  | cycles => "Stop after this many control cycles instead of at the end of the sweep"
  | armDurationMs => "How long the arming pulse is held"
  | sweepSteps => "Commands per axis in the sweep [default: 50]"

/-- An option with its value as messages show it. -/
def usage (p : Parameter) : String := s!"--{p.name} <{p.placeholder}>"

end Parameter

/-- Why a value does not suit its option. -/
inductive ValueError where
  | unknownName (e : UnknownName)
  | integer (e : IntegerError)
  /-- A number that is negative or above the largest one. -/
  | outOfRange (value : Int) (largest : Nat)
  deriving DecidableEq

/-- The fault in words. -/
def ValueError.message : ValueError → String
  | unknownName e => e.message
  | integer e => e.message
  | outOfRange value largest => s!"{value} is not in 0..={largest}"

/-- What was asked for. -/
structure Arguments where
  /-- The airframe. -/
  geometry? : Option Geometry := none
  /-- The signal protocol. -/
  protocol? : Option Protocol := none
  /-- The normalization policy. -/
  normalization? : Option Normalization := none
  /-- The thrust share of the static policy in percent. -/
  thrustWeight? : Option UInt8 := none
  /-- The number of control cycles. -/
  cycles? : Option Nat := none
  /-- How long the arming pulse is held, in milliseconds. -/
  armDurationMs? : Option UInt32 := none
  /-- Commands per axis in the sweep. -/
  sweepSteps : UInt16 := 50
  deriving DecidableEq

namespace Arguments

/-- Reads a number of at most `largest`. -/
def readBounded (largest : Nat) (text : String) : Except ValueError Nat :=
  match Integer.readSigned text with
  | .error e => .error (.integer e)
  | .ok value =>
    if value < 0 ∨ (largest : Int) < value then .error (.outOfRange value largest)
    else .ok value.toNat

/-- Reads the value of an option and puts it in its place. -/
def set (a : Arguments) (parameter : Parameter) (text : String) : Except ValueError Arguments :=
  match parameter with
  | .geometry =>
    match Geometry.ofName text with
    | .error e => .error (.unknownName e)
    | .ok geometry => .ok { a with geometry? := some geometry }
  | .protocol =>
    match Protocol.ofName text with
    | .error e => .error (.unknownName e)
    | .ok protocol => .ok { a with protocol? := some protocol }
  | .normalization =>
    match Normalization.ofName text with
    | .error e => .error (.unknownName e)
    | .ok policy => .ok { a with normalization? := some policy }
  | .thrustWeight =>
    (readBounded 100 text).map fun n => { a with thrustWeight? := some (UInt8.ofNat n) }
  | .cycles =>
    match Integer.readUnsigned 0xffffffffffffffff text with
    | .error e => .error (.integer e)
    | .ok n => .ok { a with cycles? := some n }
  | .armDurationMs =>
    (readBounded 4294967295 text).map fun n => { a with armDurationMs? := some (UInt32.ofNat n) }
  | .sweepSteps =>
    (readBounded 65535 text).map fun n => { a with sweepSteps := UInt16.ofNat n }

/-- The policy asked for: a thrust weight counts only when the policy is the static one. -/
def policy (a : Arguments) (current : Normalization) : Normalization :=
  match a.normalization?.getD current, a.thrustWeight? with
  | .staticWeight _, some percent => .staticWeight percent
  | policy, _ => policy

/-- The settings with what was asked for in its place. -/
def apply (a : Arguments) (s : Settings) : Settings :=
  { s with
    geometry := a.geometry?.getD s.geometry
    protocol := a.protocol?.getD s.protocol
    policy := a.policy s.policy
    esc := { s.esc with armMs := a.armDurationMs?.getD s.esc.armMs } }

end Arguments

end Multirotor
