import Multirotor.Mailbox

/-!
# The registers of the mailbox

In memory a mailbox is a sequence number, the bits of the four numbers of a command and a byte of
switches.  A publication writes them one after the other, and an odd sequence number shows that it
is not finished.  `Registers.mailbox` is the mailbox that the bits stand for; several bit patterns
stand for NaN, and the registers tell them apart.
-/

namespace Multirotor

/-- The bits of a command and its switches. -/
structure Frame where
  thrust : UInt32 := 0
  roll : UInt32 := 0
  pitch : UInt32 := 0
  yaw : UInt32 := 0
  flags : UInt8 := 0
  deriving DecidableEq

namespace Frame

/-- The command that the bits stand for. -/
def command (frame : Frame) : Command :=
  ⟨.ofBits frame.thrust, .ofBits frame.roll, .ofBits frame.pitch, .ofBits frame.yaw⟩

/-- The command that the bits stand for, with its switches. -/
def publication (frame : Frame) : Command × Flags := (frame.command, ⟨frame.flags⟩)

/-- Drops the switches that mean nothing. -/
def truncate (frame : Frame) : Frame :=
  { frame with flags := (Flags.truncate ⟨frame.flags⟩).bits }

end Frame

/-- A write to one register. -/
inductive Store where
  | sequence (count : UInt32)
  | thrust (bits : UInt32)
  | roll (bits : UInt32)
  | pitch (bits : UInt32)
  | yaw (bits : UInt32)
  | flags (bits : UInt8)
  deriving DecidableEq

/-- A mailbox in memory. -/
structure Registers where
  /-- The sequence number, 0 before the first publication and odd during each. -/
  sequence : UInt32 := 0
  /-- What was published last. -/
  frame : Frame := {}
  deriving DecidableEq

namespace Registers

/-- The mailbox that the bits stand for. -/
def mailbox (r : Registers) : Mailbox := ⟨r.sequence, r.frame.command, ⟨r.frame.flags⟩⟩

/-- The registers after a write. -/
def store (r : Registers) : Store → Registers
  | .sequence count => { r with sequence := count }
  | .thrust bits => { r with frame.thrust := bits }
  | .roll bits => { r with frame.roll := bits }
  | .pitch bits => { r with frame.pitch := bits }
  | .yaw bits => { r with frame.yaw := bits }
  | .flags bits => { r with frame.flags := bits }

/-- The writes of a publication in their order.  The first one makes the sequence number odd, and
the last one makes it even again. -/
def stores (r : Registers) (frame : Frame) : List Store :=
  [.sequence (r.sequence + 1), .thrust frame.thrust, .roll frame.roll, .pitch frame.pitch,
    .yaw frame.yaw, .flags frame.flags, .sequence (Mailbox.nextSequence r.sequence)]

def publish (r : Registers) (frame : Frame) : Registers := (r.stores frame).foldl store r

/-- How often a reader tries. -/
def readAttempts : Nat := 4

/-- What a reader finds in so many attempts while nobody writes.  It gives up at once if nothing was
published, and tries again if the sequence number is odd. -/
def readWithin : Nat → Registers → Option (Frame × UInt32)
  | 0, _ => none
  | attempts + 1, r =>
    if r.sequence = 0 then none
    else if r.sequence % 2 = 1 then readWithin attempts r
    else some (r.frame.truncate, r.sequence)

/-- The bits of the latest publication with its sequence number, if there was one. -/
def latest? (r : Registers) : Option (Frame × UInt32) := readWithin readAttempts r

end Registers

/-- What the control loop keeps of the publication that it has seen last. -/
structure Kept where
  /-- The sequence number, 0 before the first publication. -/
  sequence : UInt32 := 0
  /-- The bits of the command and its switches. -/
  frame : Frame := {}
  deriving DecidableEq

/-- A look into the registers takes over the bits of a publication that was not seen yet. -/
def Kept.look (kept : Kept) (r : Registers) : Kept :=
  match r.latest? with
  | none => kept
  | some (frame, sequence) => if sequence = kept.sequence then kept else ⟨sequence, frame⟩

end Multirotor
