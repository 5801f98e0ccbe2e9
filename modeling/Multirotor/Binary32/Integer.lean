import Multirotor.Binary32.Arithmetic

/-!
# Integers from binary32 numbers

Percentages and nanoseconds are whole numbers made from binary32 numbers: rounded to the nearest
integer first, then cut to the range of the target.
-/

namespace Multirotor.Binary32

/-- The integer part of a number, toward zero. -/
def truncate : Binary32 → Binary32
  | nan => nan
  | infinity negative => infinity negative
  | finite negative rank => ofRatio negative (magnitude rank >>> 149 <<< 149) 1

/-- The largest number below one half. -/
def belowHalf : Binary32 := finite false ⟨0x3effffff, by decide⟩

/-- The nearest integer, a half going away from zero: the number is moved away from zero by the
largest number below one half and cut to its integer part.  Adding one half itself would carry
the number just below one half up to one. -/
def roundAway (x : Binary32) : Binary32 :=
  (x + copySign belowHalf x).truncate

/-- The integer part of a number as a natural number of at most `limit`: negative numbers and NaN
give 0, larger numbers the limit. -/
def toNatAtMost (limit : Nat) : Binary32 → Nat
  | nan => 0
  | infinity negative => if negative then 0 else limit
  | finite negative rank => if negative then 0 else min limit (magnitude rank >>> 149)

/-- The integer part of a number, cut to eight bits. -/
def toUInt8 (x : Binary32) : UInt8 := UInt8.ofNat (x.toNatAtMost 255)

/-- The integer part of a number, cut to 32 bits. -/
def toUInt32 (x : Binary32) : UInt32 := UInt32.ofNat (x.toNatAtMost 4294967295)

/-- A fraction as a whole percentage, the nearest one with halves going away from zero. -/
def percent (x : Binary32) : UInt8 := (x * 100).roundAway.toUInt8

end Multirotor.Binary32
