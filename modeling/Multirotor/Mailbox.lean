import Multirotor.Command

/-!
# The command mailbox

The place where one command source leaves its latest command and the control loop finds it.  A new
publication replaces the last one, and a sequence number tells publications apart: it starts at 0,
which means that nothing was published, and grows by two with each publication.
-/

namespace Multirotor

/-- What a reader finds in the mailbox. -/
structure Sample where
  /-- The latest command. -/
  command : Command
  /-- Its switches, known ones only. -/
  flags : Flags
  /-- The sequence number of its publication. -/
  sequence : UInt32
  deriving DecidableEq

/-- The latest publication with its sequence number. -/
structure Mailbox where
  /-- The sequence number, 0 before the first publication. -/
  sequence : UInt32 := 0
  /-- The latest command. -/
  command : Command := .idle
  /-- Its switches as they were published. -/
  flags : Flags := .none
  deriving DecidableEq

namespace Mailbox

/-- The sequence number after a publication.  On the way round it leaves 0 out, so that 0 keeps its
meaning. -/
def nextSequence (sequence : UInt32) : UInt32 :=
  if sequence + 2 = 0 then 2 else sequence + 2

/-- Replaces the latest publication. -/
def publish (m : Mailbox) (command : Command) (flags : Flags) : Mailbox :=
  ⟨nextSequence m.sequence, command, flags⟩

/-- The latest publication, if there was one.  Between publications the sequence number is even; an
odd one means that the fields are being written. -/
def latest? (m : Mailbox) : Option Sample :=
  if m.sequence = 0 ∨ m.sequence % 2 = 1 then none
  else some ⟨m.command, m.flags.truncate, m.sequence⟩

/-- Sequence numbers of publications are even and never 0. -/
theorem nextSequence_even {n : UInt32} (even : n % 2 = 0) :
    nextSequence n % 2 = 0 ∧ nextSequence n ≠ 0 := by
  unfold nextSequence
  split
  · decide
  · rename_i h
    refine ⟨?_, h⟩
    apply UInt32.toNat_inj.1
    have halves := congrArg UInt32.toNat even
    simp [UInt32.toNat_mod, UInt32.toNat_add] at halves ⊢
    omega

/-- A publication is what a reader finds next. -/
theorem latest?_publish {m : Mailbox} (even : m.sequence % 2 = 0) (command : Command)
    (flags : Flags) :
    (m.publish command flags).latest? =
      some ⟨command, flags.truncate, nextSequence m.sequence⟩ := by
  have next := nextSequence_even even
  simp [latest?, publish, next]

end Mailbox

end Multirotor
