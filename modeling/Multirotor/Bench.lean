import Multirotor.Journal

/-!
# The bench

What all motors share: the PWM timer, the journal, and the record of how long the program asked to
wait while motors were arming.
-/

namespace Multirotor

/-- The surroundings of the motors. -/
structure Bench where
  /-- The device that drives the outputs. -/
  timer : Timer
  /-- The events so far, oldest first. -/
  journal : Array Event := #[]
  /-- The waits asked for while arming, in milliseconds, oldest first. -/
  holds : Array UInt32 := #[]
  deriving DecidableEq

namespace Bench

def write (b : Bench) (w : Write) : Except WriteError Unit × Bench :=
  ((b.timer.set w).1, { b with timer := (b.timer.set w).2 })

def log (b : Bench) (event : Event) : Bench := { b with journal := b.journal.push event }

/-- Waits for a number of milliseconds. -/
def hold (b : Bench) (durationMs : UInt32) : Bench := { b with holds := b.holds.push durationMs }

/-- Every write to the device is recorded by the timer. -/
theorem attempts_write (b : Bench) (w : Write) :
    (b.write w).2.timer.attempts = b.timer.attempts.push w :=
  b.timer.attempts_set w

end Bench

end Multirotor
