import Multirotor.Binary32.Arithmetic
import Multirotor.Fault

/-!
# Geometries

Where the motors of each airframe sit and what each command axis contributes to them.  Positive roll
lowers the right side, positive pitch lowers the nose, and yaw is positive for motors whose
propeller turns clockwise.  The motors of a geometry are attached in the order of its arms.
-/

namespace Multirotor

/-- What each command axis contributes to one motor. -/
structure Factors where
  /-- Share of the roll demand. -/
  roll : Binary32
  /-- Share of the pitch demand. -/
  pitch : Binary32
  /-- Share of the yaw demand. -/
  yaw : Binary32
  /-- Share of the thrust. -/
  throttle : Binary32
  deriving DecidableEq

/-- The most motors a mixer drives. -/
def maxMotors : Nat := 6

/-- A usable table has one row per motor, between one row and `maxMotors`, roll, pitch and yaw
columns that cancel within `0.0001` so that pure thrust makes no torque, and lift on every motor. -/
def UsableTable (table : List Factors) (motorCount : Nat) : Prop :=
  let column (share : Factors → Binary32) : Binary32 :=
    table.foldl (fun sum row => sum + share row) 0
  (table.length = motorCount ∧ 0 < motorCount ∧ motorCount ≤ maxMotors) ∧
    ((column Factors.roll).abs ≤ 1e-4 ∧ (column Factors.pitch).abs ≤ 1e-4 ∧
      (column Factors.yaw).abs ≤ 1e-4) ∧
    ∀ row ∈ table, 0 < row.throttle

instance (table : List Factors) (motorCount : Nat) : Decidable (UsableTable table motorCount) := by
  unfold UsableTable
  infer_instance

/-- Accepts usable factor tables. -/
def checkTable (table : List Factors) (motorCount : Nat) : Except MixerError Unit :=
  if UsableTable table motorCount then .ok () else .error .invalidGeometry

/-- One arm of an airframe: where its motor sits and what it contributes. -/
structure Arm where
  /-- Where the motor sits. -/
  position : Position
  /-- What the command axes contribute to it. -/
  factors : Factors

def sin60 : Binary32 := 0.8660254

/-- A physical arrangement of motors. -/
inductive Geometry where
  /-- Four motors between the axes. -/
  | quadX
  /-- Four motors on the axes. -/
  | quadCross
  /-- Six motors, two of them on the lateral axis. -/
  | hexX
  /-- Six motors, two of them on the longitudinal axis. -/
  | hexCross
  deriving DecidableEq

namespace Geometry

/-- All geometries in the order of their codes. -/
def all : List Geometry := [quadX, quadCross, hexX, hexCross]

/-- The arms in the order in which motors are attached. -/
def arms : Geometry → List Arm
  | quadX =>
    [⟨.frontRight, ⟨-1, -1, 1, 1⟩⟩,
      ⟨.rearLeft, ⟨1, 1, 1, 1⟩⟩,
      ⟨.frontLeft, ⟨1, -1, -1, 1⟩⟩,
      ⟨.rearRight, ⟨-1, 1, -1, 1⟩⟩]
  | quadCross =>
    [⟨.right, ⟨-1, 0, 1, 1⟩⟩,
      ⟨.left, ⟨1, 0, 1, 1⟩⟩,
      ⟨.front, ⟨0, -1, -1, 1⟩⟩,
      ⟨.rear, ⟨0, 1, -1, 1⟩⟩]
  -- at 90, 270, 330, 150, 30 and 210 degrees clockwise from the nose
  | hexX =>
    [⟨.right, ⟨-1, 0, 1, 1⟩⟩,
      ⟨.left, ⟨1, 0, -1, 1⟩⟩,
      ⟨.frontLeft, ⟨0.5, -sin60, 1, 1⟩⟩,
      ⟨.rearRight, ⟨-0.5, sin60, -1, 1⟩⟩,
      ⟨.frontRight, ⟨-0.5, -sin60, -1, 1⟩⟩,
      ⟨.rearLeft, ⟨0.5, sin60, 1, 1⟩⟩]
  -- at 0, 180, 300, 120, 60 and 240 degrees clockwise from the nose
  | hexCross =>
    [⟨.front, ⟨0, -1, 1, 1⟩⟩,
      ⟨.rear, ⟨0, 1, -1, 1⟩⟩,
      ⟨.frontLeft, ⟨sin60, -0.5, -1, 1⟩⟩,
      ⟨.rearRight, ⟨-sin60, 0.5, 1, 1⟩⟩,
      ⟨.frontRight, ⟨-sin60, -0.5, -1, 1⟩⟩,
      ⟨.rearLeft, ⟨sin60, 0.5, 1, 1⟩⟩]

def table (g : Geometry) : List Factors := g.arms.map Arm.factors

def positions (g : Geometry) : List Position := g.arms.map Arm.position

def motorCount (g : Geometry) : Nat := g.arms.length

def code : Geometry → UInt8
  | quadX => 0
  | quadCross => 1
  | hexX => 2
  | hexCross => 3

def name : Geometry → String
  | quadX => "quad-x"
  | quadCross => "quad-cross"
  | hexX => "hex-x"
  | hexCross => "hex-cross"

def ofCode (code : UInt8) : Except MixerError Geometry :=
  match all.find? fun g => g.code = code with
  | some g => .ok g
  | none => .error .invalidGeometry

/-- The geometry with a name; the case of ASCII letters does not matter. -/
def ofName (text : String) : Except UnknownName Geometry :=
  match all.find? fun g => g.name = text.toLower with
  | some g => .ok g
  | none => .error (.geometry text)

/-- Accepts geometries with a usable factor table. -/
def validate (g : Geometry) : Except MixerError Unit := checkTable g.table g.motorCount

theorem mem_all (g : Geometry) : g ∈ all := by cases g <;> decide

theorem length_table (g : Geometry) : g.table.length = g.motorCount := by
  simp [table, motorCount]

theorem length_positions (g : Geometry) : g.positions.length = g.motorCount := by
  simp [positions, motorCount]

/-- No geometry has more motors than a mixer drives. -/
theorem motorCount_le (g : Geometry) : g.motorCount ≤ maxMotors := by cases g <;> decide

theorem motorCount_pos (g : Geometry) : 0 < g.motorCount := by cases g <;> decide

/-- A geometry is determined by its code. -/
theorem ofCode_code (g : Geometry) : ofCode g.code = .ok g := by cases g <;> rfl

end Geometry

end Multirotor
