/-!
# Motor positions

The places around the airframe at which a geometry puts its motors.
-/

namespace Multirotor

/-- A place on the airframe, seen from above with the nose in front. -/
inductive Position where
  | frontRight
  | rearLeft
  | frontLeft
  | rearRight
  | front
  | rear
  | left
  | right
  deriving DecidableEq

namespace Position

def label : Position → String
  | frontRight => "FrontRight"
  | rearLeft => "RearLeft"
  | frontLeft => "FrontLeft"
  | rearRight => "RearRight"
  | front => "Front"
  | rear => "Rear"
  | left => "Left"
  | right => "Right"

end Position

end Multirotor
