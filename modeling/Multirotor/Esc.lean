import Multirotor.Bench

/-!
# ESCs

An `Esc` drives one output channel with the pulses of its protocol.  It writes nothing before it is
armed, stopped or given a speed, and it clamps nothing: a speed outside the unit interval is an
error.  An operation returns its outcome, the ESC and the bench as they are afterwards; what an
operation did before it failed stays done.
-/

namespace Multirotor

/-- Whether a part may still be used. -/
inductive Lifecycle where
  | initialized
  /-- Released for good. -/
  | uninitialized
  deriving DecidableEq

/-- The name of a lifecycle state in diagnostic text. -/
def Lifecycle.label : Lifecycle → String
  | initialized => "Initialized"
  | uninitialized => "Uninitialized"

/-- How far an ESC has come in taking up its work. -/
inductive Arming where
  | disarmed
  /-- The arming pulse is held since a time in microseconds. -/
  | arming (sinceUs : Nat)
  | armed
  deriving DecidableEq

namespace Arming

def label : Arming → String
  | disarmed => "Disarmed"
  | arming _ => "Arming"
  | armed => "Armed"

/-- The state with its contents.  Clock readings differ from run to run and are left out. -/
def diagnostic (a : Arming) : String :=
  match a with
  | arming _ => Diagnostic.record a.label [("started_us", "_")]
  | _ => a.label

end Arming

structure EscSettings where
  /-- The part of the pulse range left out at the lower end, in percent. -/
  minOffset : UInt8 := 0
  /-- The part of the pulse range left out at the upper end, in percent. -/
  maxOffset : UInt8 := 0
  /-- How long the arming pulse is held, in milliseconds. -/
  armMs : UInt32 := 3000
  deriving DecidableEq

/-- One electronic speed controller on its output channel. -/
structure Esc where
  /-- The output channel. -/
  channel : UInt32
  /-- The signal protocol. -/
  protocol : Protocol
  /-- The period and the pulse range without its dead zones. -/
  timing : Timing
  /-- How long the arming pulse is held, in milliseconds. -/
  armMs : UInt32
  /-- Whether the ESC is still in use. -/
  lifecycle : Lifecycle
  /-- How far the ESC has come in arming. -/
  arming : Arming
  deriving DecidableEq

namespace Esc

/-- Sets up an ESC on a channel.  Nothing is written. -/
def configure (channel : UInt32) (protocol : Protocol) (settings : EscSettings) (bench : Bench) :
    Except EscError Esc × Bench :=
  if !bench.timer.ready then (.error .deviceNotReady, bench)
  else
    match protocol.timing.withOffsets settings.minOffset settings.maxOffset with
    | .error e => (.error e, bench)
    | .ok timing =>
      (.ok ⟨channel, protocol, timing, settings.armMs, .initialized, .disarmed⟩,
        bench.log (.escConfigured channel protocol timing))

/-- Sets up an ESC with the protocol of a numeric code. -/
def configureByCode (channel : UInt32) (code : UInt8) (settings : EscSettings) (bench : Bench) :
    Except EscError Esc × Bench :=
  if !bench.timer.ready then (.error .deviceNotReady, bench)
  else
    match Protocol.ofCode code with
    | .error e => (.error e, bench)
    | .ok protocol => configure channel protocol settings bench

/-- The write that gives the ESC a speed. -/
def speedWrite (e : Esc) (speed : Binary32) : Write :=
  ⟨e.channel, e.timing.periodNs, nanoseconds (e.timing.pulse speed)⟩

/-- The write that holds the arming pulse. -/
def armingWrite (e : Esc) : Write :=
  ⟨e.channel, e.timing.periodNs, nanoseconds e.protocol.armPulse⟩

/-- Drives the motor at a speed.  The ESC itself does not change. -/
def drive (e : Esc) (speed : Binary32) (bench : Bench) : Except EscError Unit × Bench :=
  match e.lifecycle with
  | .uninitialized => (.error .notInitialized, bench)
  | .initialized =>
    if 0 ≤ speed ∧ speed ≤ 1 then
      match bench.write (e.speedWrite speed) with
      | (.ok (), bench) => (.ok (), bench)
      | (.error reason, bench) => (.error (.ofWrite reason), bench)
    else (.error .outOfRangeCommand, bench)

/-- Drives the output low, so that the ESC sees no signal, and disarms it. -/
def stop (e : Esc) (bench : Bench) : Except EscError Unit × Esc × Bench :=
  match e.lifecycle with
  | .uninitialized => (.error .notInitialized, e, bench)
  | .initialized =>
    match bench.write (.stop e.channel) with
    | (.ok (), bench) => (.ok (), { e with arming := .disarmed }, bench)
    | (.error reason, bench) => (.error (.stopFailed reason), e, bench)

/-- Starts to hold the arming pulse at a time in microseconds.  If the pulse is refused the output
is stopped. -/
def beginArm (e : Esc) (nowUs : Nat) (bench : Bench) : Except EscError Unit × Esc × Bench :=
  match e.lifecycle with
  | .uninitialized => (.error .notInitialized, e, bench)
  | .initialized =>
    match bench.write e.armingWrite with
    | (.ok (), bench) => (.ok (), { e with arming := .arming nowUs }, bench)
    | (.error reason, bench) =>
      match e.stop (bench.log (.escArmingRefused e.channel reason)) with
      | (.ok (), e, bench) => (.error (.armingFailed reason), e, bench)
      | (.error stopReason, e, bench) =>
        (.error (.armingFailed reason), e, bench.log (.escStopRefused e.channel stopReason))

/-- Asks at a time in microseconds whether the arming pulse has been held long enough; if so the
ESC is armed. -/
def pollArm (e : Esc) (nowUs : Nat) : Except EscError Bool × Esc :=
  match e.lifecycle with
  | .uninitialized => (.error .notInitialized, e)
  | .initialized =>
    match e.arming with
    | .armed => (.ok true, e)
    | .disarmed => (.error .armingNotStarted, e)
    | .arming sinceUs =>
      if e.armMs.toNat * 1000 ≤ nowUs - sinceUs then (.ok true, { e with arming := .armed })
      else (.ok false, e)

/-- The ESC after its arming pulse has been held for the arming duration. -/
def finishArm (e : Esc) : Esc :=
  match e.arming with
  | .arming sinceUs => (e.pollArm (sinceUs + e.armMs.toNat * 1000)).2
  | _ => e

/-- Holds the arming pulse for the whole arming duration. -/
def arm (e : Esc) (nowUs : Nat) (bench : Bench) : Except EscError Unit × Esc × Bench :=
  match e.beginArm nowUs bench with
  | (.error reason, e, bench) => (.error reason, e, bench)
  | (.ok (), e, bench) =>
    (.ok (), { e with arming := .armed },
      (bench.log (.escArming e.channel e.armMs)).hold e.armMs)

/-- Stops the output and gives the channel up.  If the stop is refused the ESC stays in use, so that
the stop can be tried again. -/
def release (e : Esc) (bench : Bench) : Except EscError Unit × Esc × Bench :=
  match e.stop bench with
  | (.error reason, e, bench) => (.error reason, e, bench)
  | (.ok (), e, bench) => (.ok (), { e with lifecycle := .uninitialized }, bench)

def diagnostic (e : Esc) : String :=
  Diagnostic.record "MotorController"
    [("channel", toString e.channel), ("protocol", e.protocol.label),
      ("timing", e.timing.diagnostic), ("state", e.lifecycle.label),
      ("arming", e.arming.diagnostic)]

end Esc

end Multirotor
