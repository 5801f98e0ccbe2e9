import Multirotor.Mailbox
import Multirotor.Mixer

/-!
# The vehicle

A mixer on its bench, the mailbox through which commands reach it and the telemetry that leaves it.
An `Input` is something that other tasks do to the vehicle while the control loop waits.
-/

namespace Multirotor

/-- A mixer with everything around it. -/
structure Vehicle where
  /-- The mixer with its motors. -/
  mixer : Mixer
  /-- The device, the journal and the waits. -/
  bench : Bench
  /-- Where commands arrive. -/
  mailbox : Mailbox := {}
  /-- What the control loop publishes. -/
  telemetry : Telemetry := {}
  deriving DecidableEq

/-- Something that happens to the vehicle from outside. -/
inductive Input where
  /-- Somebody else writes to the device. -/
  | write (w : Write)
  | setReady (ready : Bool)
  | injectFault (channel : UInt32) (reason : WriteError)
  | clearFaults
  | publish (command : Command) (flags : Flags)
  /-- Another task reports an event. -/
  | note (event : Event)
  deriving DecidableEq

namespace Vehicle

/-- The vehicle after one input. -/
def receive (v : Vehicle) : Input → Vehicle
  | .write w => { v with bench := (v.bench.write w).2 }
  | .setReady ready => { v with bench.timer := v.bench.timer.setReady ready }
  | .injectFault channel reason =>
    { v with bench.timer := v.bench.timer.injectFault channel reason }
  | .clearFaults => { v with bench.timer := v.bench.timer.clearFaults }
  | .publish command flags => { v with mailbox := v.mailbox.publish command flags }
  | .note event => { v with bench := v.bench.log event }

def receiveAll (v : Vehicle) (inputs : List Input) : Vehicle := inputs.foldl receive v

end Vehicle

end Multirotor
