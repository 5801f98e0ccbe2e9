/-!
# Exits of the control loop
-/

namespace Multirotor

/-- How the control loop ends when nothing fails. -/
inductive Exit where
  /-- The command source asked for the motors to be killed; they are stopped. -/
  | killed
  /-- All cycles were run; the motors keep their speeds. -/
  | cyclesCompleted
  deriving DecidableEq

def Exit.label : Exit → String
  | killed => "Killed"
  | cyclesCompleted => "CyclesCompleted"

end Multirotor
