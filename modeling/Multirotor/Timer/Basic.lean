import Multirotor.Fault

/-!
# The PWM timer

A hardware timer that drives several output channels.  Its counter is finite, so a period must not
need more ticks than the counter has; pulses may not outlast their period; and channels can be made
to refuse writes.  Every write attempted is recorded, accepted or not, and each channel keeps the
last write that it accepted.
-/

namespace Multirotor

/-- A setting of one output channel: a signal that repeats every `periodNs` and is high for
`pulseNs`.  Channels are numbered from 1. -/
structure Write where
  /-- The output channel. -/
  channel : UInt32
  /-- The repetition interval in nanoseconds. -/
  periodNs : UInt32
  /-- The time for which the output is high, in nanoseconds. -/
  pulseNs : UInt32
  deriving DecidableEq

namespace Write

/-- The setting that keeps an output low. -/
def stop (channel : UInt32) : Write := ⟨channel, 0, 0⟩

/-- The setting keeps the output low. -/
def IsStop (w : Write) : Prop := w.periodNs = 0 ∧ w.pulseNs = 0

instance (w : Write) : Decidable w.IsStop := inferInstanceAs (Decidable (_ ∧ _))

def diagnostic (w : Write) : String :=
  Diagnostic.record "PwmWrite"
    [("channel", toString w.channel), ("period_ns", toString w.periodNs),
      ("pulse_ns", toString w.pulseNs)]

end Write

/-- A timer with its output channels. -/
structure Timer where
  /-- Ticks of the counter in a second. -/
  clockHz : UInt32
  /-- The largest count. -/
  counterMax : UInt64
  /-- Channels 1 to this number exist. -/
  channelCount : UInt32
  /-- The device takes writes. -/
  ready : Bool
  /-- The last accepted write of each channel that has accepted one. -/
  registers : List Write
  /-- Every write attempted, oldest first. -/
  attempts : Array Write
  /-- Channels made to refuse writes, with the reason, oldest first. -/
  faults : List (UInt32 × WriteError)
  deriving DecidableEq

namespace Timer

/-- A fresh timer with a counter of the given width; widths above 63 bits count as 63. -/
def ofWidth (channelCount clockHz bits : UInt32) : Timer where
  clockHz := clockHz
  counterMax := (1 <<< (min bits 63).toUInt64) - 1
  channelCount := channelCount
  ready := true
  registers := []
  attempts := #[]
  faults := []

/-- The timer of the bench: a clock of 1 MHz and a 16-bit counter, enough for every protocol. -/
def bench (channelCount : UInt32) : Timer := ofWidth channelCount 1000000 16

/-- The last write accepted on a channel. -/
def output? (t : Timer) (channel : UInt32) : Option Write :=
  t.registers.find? fun w => w.channel = channel

/-- The whole ticks in a time span. -/
def ticks (t : Timer) (durationNs : UInt32) : UInt64 :=
  durationNs.toUInt64 * t.clockHz.toUInt64 / 1000000000

/-- Why the timer refuses a write, if it does; the first reason counts. -/
def refusal? (t : Timer) (w : Write) : Option WriteError :=
  if !t.ready then some .notReady
  else if w.channel = 0 ∨ t.channelCount < w.channel then some (.channelUnavailable w.channel)
  else
    match t.faults.find? fun fault => fault.1 = w.channel with
    | some (_, reason) => some reason
    | none =>
      if w.periodNs < w.pulseNs then some .writeFailed
      else if t.counterMax < t.ticks w.periodNs then some .timerOverflow
      else none

/-- Records a write among the attempts. -/
def record (t : Timer) (w : Write) : Timer := { t with attempts := t.attempts.push w }

/-- Makes a write the setting of its channel. -/
def latch (t : Timer) (w : Write) : Timer :=
  { t with registers := w :: t.registers.filter fun old => old.channel ≠ w.channel }

def set (t : Timer) (w : Write) : Except WriteError Unit × Timer :=
  match t.refusal? w with
  | some reason => (.error reason, t.record w)
  | none => (.ok (), (t.record w).latch w)

/-- Makes the device take writes or refuse them all. -/
def setReady (t : Timer) (ready : Bool) : Timer := { t with ready := ready }

/-- Makes a channel refuse every write until the faults are cleared. -/
def injectFault (t : Timer) (channel : UInt32) (reason : WriteError) : Timer :=
  { t with faults := t.faults ++ [(channel, reason)] }

/-- Ends all refusals that were injected. -/
def clearFaults (t : Timer) : Timer := { t with faults := [] }

theorem attempts_set (t : Timer) (w : Write) : (t.set w).2.attempts = t.attempts.push w := by
  unfold set
  split <;> rfl

/-- A write changes the register of its own channel if it is accepted, and nothing else. -/
theorem output?_set (t : Timer) (w : Write) (channel : UInt32) :
    (t.set w).2.output? channel =
      if t.refusal? w = none ∧ channel = w.channel then some w else t.output? channel := by
  unfold set
  split
  · rename_i reason refused
    simp [refused, output?, record]
  · rename_i accepted
    simp only [accepted, true_and, output?, latch, record]
    by_cases same : channel = w.channel
    · simp [same]
    · have other : ¬ w.channel = channel := fun h => same h.symm
      simp only [List.find?_cons, other, decide_false, same, if_false, List.find?_filter]
      congr 1
      funext old
      by_cases h : old.channel = channel <;> simp [h, same]

end Timer

end Multirotor
