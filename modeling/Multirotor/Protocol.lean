import Multirotor.Binary32.Integer
import Multirotor.Decimal.Style
import Multirotor.Fault

/-!
# ESC signal protocols

An ESC reads its speed from the width of a pulse that repeats with a fixed period.  `Timing` is that
period with the pulse range in microseconds; a speed in the unit interval is mapped linearly onto
the range.  Pulses are written to the device in nanoseconds.
-/

namespace Multirotor

/-- The whole nanoseconds nearest to a number of microseconds, halves going away from zero, cut to
32 bits. -/
def nanoseconds (micros : Binary32) : UInt32 := (micros * 1000).roundAway.toUInt32

/-- The period of a signal and its range of pulse widths. -/
structure Timing where
  /-- The repetition interval in microseconds. -/
  periodUs : UInt32
  /-- The pulse of speed 0 in microseconds. -/
  minPulse : Binary32
  /-- The pulse of speed 1 in microseconds. -/
  maxPulse : Binary32
  deriving DecidableEq

namespace Timing

/-- The repetition interval in nanoseconds. -/
def periodNs (t : Timing) : UInt32 := t.periodUs * 1000

/-- The pulse range narrowed by percentages of its width, so that a dead zone at either end is left
out.  The two offsets have to leave something. -/
def withOffsets (t : Timing) (min max : UInt8) : Except EscError Timing :=
  if 100 ≤ min.toNat + max.toNat then .error (.invalidOffset min max)
  else
    let span := t.maxPulse - t.minPulse
    .ok
      { t with
        minPulse := t.minPulse + span * (.ofNat min.toNat / 100)
        maxPulse := t.maxPulse - span * (.ofNat max.toNat / 100) }

/-- The pulse for a speed in microseconds. -/
def pulse (t : Timing) (speed : Binary32) : Binary32 :=
  t.minPulse + speed * (t.maxPulse - t.minPulse)

/-- The timing with its contents. -/
def diagnostic (t : Timing) : String :=
  Diagnostic.record "ProtocolTiming"
    [("period_us", toString t.periodUs), ("min_pulse_us", t.minPulse.text .diagnostic),
      ("max_pulse_us", t.maxPulse.text .diagnostic)]

end Timing

/-- A signal protocol. -/
inductive Protocol where
  | pwm
  | oneShot125
  | oneShot42
  | multishot
  deriving DecidableEq

namespace Protocol

/-- All protocols in the order of their codes. -/
def all : List Protocol := [pwm, oneShot125, oneShot42, multishot]

/-- The period and the full pulse range. -/
def timing : Protocol → Timing
  | pwm => ⟨4000, 1000, 2000⟩
  | oneShot125 => ⟨500, 125, 250⟩
  | oneShot42 => ⟨168, 42, 84⟩
  | multishot => ⟨50, 5, 25⟩

/-- The pulse held while arming: the full range's minimum, whatever the offsets. -/
def armPulse (p : Protocol) : Binary32 := p.timing.minPulse

/-- The numeric code. -/
def code : Protocol → UInt8
  | pwm => 0
  | oneShot125 => 1
  | oneShot42 => 2
  | multishot => 3

/-- The name in settings and messages. -/
def name : Protocol → String
  | pwm => "pwm"
  | oneShot125 => "oneshot125"
  | oneShot42 => "oneshot42"
  | multishot => "multishot"

/-- The name in diagnostic text. -/
def label : Protocol → String
  | pwm => "Pwm"
  | oneShot125 => "OneShot125"
  | oneShot42 => "OneShot42"
  | multishot => "Multishot"

/-- The protocol with a numeric code. -/
def ofCode (code : UInt8) : Except EscError Protocol :=
  match all.find? fun p => p.code = code with
  | some p => .ok p
  | none => .error (.invalidProtocol code)

/-- The protocol with a name; the case of ASCII letters does not matter. -/
def ofName (text : String) : Except UnknownName Protocol :=
  match all.find? fun p => p.name = text.toLower with
  | some p => .ok p
  | none => .error (.protocol text)

/-- The list of all protocols leaves none out. -/
theorem mem_all (p : Protocol) : p ∈ all := by cases p <;> decide

/-- A protocol is determined by its code. -/
theorem ofCode_code (p : Protocol) : ofCode p.code = .ok p := by cases p <;> rfl

end Protocol

end Multirotor
