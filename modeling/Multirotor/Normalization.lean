import Multirotor.Fault

/-!
# Normalization policies

How motor demands that leave the unit interval are brought back into it.
-/

namespace Multirotor

/-- A policy for motor demands that do not fit. -/
inductive Normalization where
  /-- Scale down when above 1, shift up when below 0.  Keeps torque ratios. -/
  | clampAndShift
  /-- Shrink roll, pitch and yaw to the room that the thrust leaves. -/
  | headroom
  /-- Scale thrust by a percentage and the attitude axes by the rest of the hundred. -/
  | staticWeight (percent : UInt8)
  deriving DecidableEq

namespace Normalization

instance : Inhabited Normalization := ⟨clampAndShift⟩

/-- The thrust share of the static policy when none is given. -/
def defaultWeight : UInt8 := 60

def name : Normalization → String
  | clampAndShift => "clamp-and-shift"
  | headroom => "headroom"
  | staticWeight _ => "static"

def text : Normalization → String
  | staticWeight percent => s!"static ({percent}% thrust)"
  | policy => policy.name

/-- The policy with a name; the case of ASCII letters does not matter. -/
def ofName (text : String) : Except UnknownName Normalization :=
  let policies := [clampAndShift, headroom, staticWeight defaultWeight]
  match policies.find? fun policy => policy.name = text.toLower with
  | some policy => .ok policy
  | none => .error (.normalization text)

/-- Accepts policies with a weight of at most a hundred percent. -/
def validate : Normalization → Except MixerError Unit
  | staticWeight percent => if 100 < percent then .error (.invalidNormalization percent) else .ok ()
  | _ => .ok ()

end Normalization

end Multirotor
