import Multirotor.Binary32.Arithmetic
import Multirotor.Decimal.Style
import Multirotor.Diagnostic

/-!
# Commands

A `Command` asks for thrust and for rotation about three axes, and `Flags` are the switches that
travel with it.  The type does not enforce the ranges: `Command.InBounds` says when a command may be
flown.
-/

namespace Multirotor

inductive Axis where
  | roll
  | pitch
  | yaw
  | thrust
  deriving DecidableEq

namespace Axis

def label : Axis → String
  | roll => "Roll"
  | pitch => "Pitch"
  | yaw => "Yaw"
  | thrust => "Thrust"

/-- The axis after this one in the order roll, pitch, yaw, thrust, which starts over. -/
def next : Axis → Axis
  | roll => pitch
  | pitch => yaw
  | yaw => thrust
  | thrust => roll

end Axis

/-- A request to the mixer on all four axes. -/
structure Command where
  /-- Collective thrust, from 0 to 1. -/
  thrust : Binary32
  /-- Roll demand, from -1 to 1. -/
  roll : Binary32
  /-- Pitch demand, from -1 to 1. -/
  pitch : Binary32
  /-- Yaw demand, from -1 to 1. -/
  yaw : Binary32
  deriving DecidableEq

namespace Command

/-- No thrust and no rotation. -/
def idle : Command := ⟨0, 0, 0, 0⟩

/-- A demand on one axis and nothing on the others. -/
def single (axis : Axis) (value : Binary32) : Command :=
  match axis with
  | .roll => { idle with roll := value }
  | .pitch => { idle with pitch := value }
  | .yaw => { idle with yaw := value }
  | .thrust => { idle with thrust := value }

/-- Every axis lies in its range; in particular none is NaN. -/
def InBounds (c : Command) : Prop :=
  (0 ≤ c.thrust ∧ c.thrust ≤ 1) ∧ (-1 ≤ c.roll ∧ c.roll ≤ 1) ∧
    (-1 ≤ c.pitch ∧ c.pitch ≤ 1) ∧ (-1 ≤ c.yaw ∧ c.yaw ≤ 1)

instance (c : Command) : Decidable c.InBounds := by
  unfold InBounds
  infer_instance

def diagnostic (c : Command) : String :=
  let text := Binary32.text .diagnostic
  Diagnostic.record "ControlCommand"
    [("thrust", text c.thrust), ("roll", text c.roll), ("pitch", text c.pitch), ("yaw", text c.yaw)]

end Command

/-- Switches published with a command, one bit each. -/
structure Flags where
  /-- The bits as they travel. -/
  bits : UInt8
  deriving DecidableEq

namespace Flags

/-- No switch is set. -/
def none : Flags := ⟨0⟩

/-- Stop the motors and end the control loop. -/
def kill : Flags := ⟨1⟩

/-- The source is sending commands. -/
def start : Flags := ⟨2⟩

/-- All bits that mean something. -/
def known : Flags := ⟨3⟩

/-- Drops the bits that mean nothing. -/
def truncate (f : Flags) : Flags := ⟨f.bits &&& known.bits⟩

/-- All bits are known ones. -/
def IsExact (f : Flags) : Prop := f.truncate = f

instance (f : Flags) : Decidable f.IsExact := inferInstanceAs (Decidable (_ = _))

/-- Every switch of `g` is set in `f`. -/
def Contains (f g : Flags) : Prop := f.bits &&& g.bits = g.bits

instance (f g : Flags) : Decidable (f.Contains g) := inferInstanceAs (Decidable (_ = _))

/-- What is left after unknown bits were dropped is exact. -/
theorem truncate_truncate (f : Flags) : f.truncate.truncate = f.truncate := by
  simp [truncate, UInt8.and_assoc]

end Flags

end Multirotor
