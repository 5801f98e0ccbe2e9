import Multirotor.Binary32.Integer
import Multirotor.Diagnostic
import Multirotor.Geometry

/-!
# Telemetry

What the control loop publishes about itself: motor powers and throttle in whole percent, the number
of skipped cycles, and whether the motors are armed.  There is one power slot for each of the
`maxMotors` motors, and the count says how many are in use.
-/

namespace Multirotor

/-- The published state of the control loop. -/
structure Telemetry where
  /-- Time spent in the last cycle without its wait, in microseconds. -/
  execTimeUs : Int32 := 0
  /-- Motor powers in percent, one for each slot. -/
  slots : Vector UInt8 6 := .replicate 6 0
  /-- The number of slots in use. -/
  count : UInt8 := 0
  /-- The thrust of the last executed command in percent. -/
  throttle : UInt8 := 0
  /-- Cycles skipped so far, modulo `2 ^ 32`. -/
  skipped : UInt32 := 0
  /-- The motors are under the control of the loop. -/
  armed : Bool := false
  deriving DecidableEq

namespace Telemetry

/-- Publishes motor speeds; slots without a motor show 0. -/
def storePower (t : Telemetry) (speeds : List Binary32) : Telemetry :=
  { t with
    slots := .ofFn fun i => (speeds.getD i 0).percent
    count := UInt8.ofNat (min speeds.length maxMotors) }

/-- The powers of the motors in use. -/
def power (t : Telemetry) : List UInt8 := t.slots.toList.take t.count.toNat

/-- The longest time span that the execution time can show, in microseconds. -/
def maxExecTimeUs : Nat := 2147483647

/-- Publishes the time spent in a cycle. -/
def storeExecTime (t : Telemetry) (elapsedUs : Nat) : Telemetry :=
  { t with execTimeUs := Int32.ofNat (min elapsedUs maxExecTimeUs) }

def text (t : Telemetry) : String :=
  let motors := Diagnostic.list (t.power.map toString)
  s!"Cycle Exec Time: {t.execTimeUs}us Armed: {t.armed} Motors: {motors} " ++
    s!"Throttle: {t.throttle} Skipped: {t.skipped}"

end Telemetry

end Multirotor
