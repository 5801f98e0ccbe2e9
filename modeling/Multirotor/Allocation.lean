import Multirotor.Command
import Multirotor.Geometry
import Multirotor.Normalization

/-!
# Control allocation

From one command to one speed per motor in three steps: `prescale` shapes the command as far as the
policy works on the input, `mix` forms the raw demand of each motor, and `normalize` brings the
demands into the unit interval as far as the policy works on the output.  All of it is binary32
arithmetic with one rounding per operation, sums from left to right.
-/

namespace Multirotor

/-- The part of a policy that shapes the command before mixing. -/
def prescale (policy : Normalization) (c : Command) : Command :=
  match policy with
  | .clampAndShift => c
  | .headroom =>
    let headroom := c.thrust.least (1 - c.thrust)
    let demand := c.roll.abs + c.pitch.abs + c.yaw.abs
    if headroom < demand ∧ 0 < demand then
      let scale := headroom / demand
      ⟨c.thrust, c.roll * scale, c.pitch * scale, c.yaw * scale⟩
    else c
  | .staticWeight percent =>
    let thrustWeight := .ofNat percent.toNat / 100
    let axisWeight := 1 - thrustWeight
    ⟨c.thrust * thrustWeight, c.roll * axisWeight, c.pitch * axisWeight, c.yaw * axisWeight⟩

/-- The raw demand on one motor: the weighted sum of the command axes. -/
def Factors.demand (f : Factors) (c : Command) : Binary32 :=
  c.thrust * f.throttle + c.roll * f.roll + c.pitch * f.pitch + c.yaw * f.yaw

/-- The raw demands of the first `maxMotors` rows of a table. -/
def mix (table : List Factors) (c : Command) : List Binary32 :=
  (table.take maxMotors).map fun row => row.demand c

/-- Every value moved to the nearest point of the unit interval. -/
def clampOutputs (values : List Binary32) : List Binary32 := values.map Binary32.clampUnit

/-- The demands with a common factor that brings the highest down to 1, if it is above 1. -/
def scaleDown (values : List Binary32) : List Binary32 :=
  let highest := values.foldl Binary32.greatest (.infinity true)
  if 1 < highest then
    let scale := 1 / highest
    values.map (· * scale)
  else values

/-- The demands with a common offset that brings the lowest up to 0, if it is below 0. -/
def shiftUp (values : List Binary32) : List Binary32 :=
  let lowest := values.foldl Binary32.least (.infinity false)
  if lowest < 0 then values.map (· - lowest) else values

/-- One common scale when the highest demand is above 1, then one common shift when the lowest is
still below 0, then the clamp. -/
def clampAndShift (values : List Binary32) : List Binary32 :=
  clampOutputs (shiftUp (scaleDown values))

/-- The part of a policy that works on the demands after mixing. -/
def normalize (policy : Normalization) (values : List Binary32) : List Binary32 :=
  match policy with
  | .clampAndShift => clampAndShift values
  | .headroom | .staticWeight _ => clampOutputs values

/-- The speeds for one command. -/
def allocate (table : List Factors) (policy : Normalization) (c : Command) : List Binary32 :=
  normalize policy (mix table (prescale policy c))

end Multirotor
