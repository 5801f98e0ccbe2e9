import Multirotor.Vehicle

/-!
# The sweep

A bench exercise for a mixer: roll, then pitch, then yaw, then thrust go from 0 to full scale with
every other axis at zero, and the sweep starts over.  With a limit it ends after so many commands
and asks for the motors to be killed.
-/

namespace Multirotor

/-- A sweep before its next command. -/
structure Sweep where
  /-- Commands per axis, at least two. -/
  steps : UInt16
  /-- The commands left, or `none` for an endless sweep. -/
  remaining? : Option Nat
  /-- The axis in motion. -/
  axis : Axis
  /-- The commands sent on that axis. -/
  step : UInt16
  deriving DecidableEq

namespace Sweep

/-- The steps of a sweep when nothing else is asked for. -/
def defaultSteps : UInt16 := 2047

/-- A sweep at its start.  Fewer than two steps count as two. -/
def ofSteps (steps : UInt16) (limit? : Option Nat) : Sweep := ⟨max steps 2, limit?, .roll, 0⟩

/-- The demand of the next command: the share of the axis's steps already made. -/
def value (s : Sweep) : Binary32 := .ofNat s.step.toNat / .ofNat (s.steps - 1).toNat

/-- The next command. -/
def command (s : Sweep) : Command := .single s.axis s.value

/-- The sweep after its next command, without regard to the limit. -/
def advance (s : Sweep) : Sweep :=
  if s.step + 1 = s.steps then { s with step := 0, axis := s.axis.next }
  else { s with step := s.step + 1 }

/-- The next command with the sweep behind it, or `none` at the limit. -/
def next? (s : Sweep) : Option (Command × Sweep) :=
  match s.remaining? with
  | some 0 => none
  | some (left + 1) => some (s.command, { s.advance with remaining? := some left })
  | none => some (s.command, s.advance)

/-- A sweep ends exactly at its limit. -/
theorem next?_eq_none_iff (s : Sweep) : s.next? = none ↔ s.remaining? = some 0 := by
  unfold next?
  split <;> simp_all

/-- Takes up to `count` commands and counts those that there were. -/
def skip (s : Sweep) (count : Nat) : Nat × Sweep :=
  go 0 count s
where
  /-- Adds the number of commands to `taken`. -/
  go (taken : Nat) : Nat → Sweep → Nat × Sweep
    | 0, s => (taken, s)
    | count + 1, s =>
      match s.next? with
      | none => (taken, s)
      | some (_, s) => go (taken + 1) count s

/-- The batches of the next `rounds` rounds: one command in each round, the order to kill in the
round after the last command, and nothing from then on.  The journal learns of each axis when the
sweep has turned to it. -/
def batches (s : Sweep) : Nat → List (List Input)
  | 0 => []
  | rounds + 1 =>
    match s.next? with
    | none => [[.note .sweepFinished, .publish .idle .kill]]
    | some (command, after) =>
      let turn := if after.axis = s.axis then [] else [Input.note (.sweepAxis after.axis)]
      (.publish command .start :: turn) :: after.batches rounds

/-- What a sweep does to the vehicle from its start through `rounds` rounds: the journal learns of
the axis in motion before the first of them. -/
def transmission (s : Sweep) (rounds : Nat) : List (List Input) :=
  [.note (.sweepAxis s.axis)] :: s.batches rounds

end Sweep

end Multirotor
