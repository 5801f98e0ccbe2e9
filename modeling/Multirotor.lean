import Multirotor.Binary32.Basic
import Multirotor.Binary32.Arithmetic
import Multirotor.Binary32.Integer
import Multirotor.Decimal.Shortest
import Multirotor.Decimal.Style
import Multirotor.Diagnostic
import Multirotor.Position
import Multirotor.Fault
import Multirotor.Command
import Multirotor.Geometry
import Multirotor.Normalization
import Multirotor.Allocation
import Multirotor.Protocol
import Multirotor.Timer.Basic
import Multirotor.Timer.OutputTable
import Multirotor.Telemetry
import Multirotor.Journal
import Multirotor.Bench
import Multirotor.Esc
import Multirotor.Mixer
import Multirotor.Mailbox
import Multirotor.Mailbox.Registers
import Multirotor.Vehicle
import Multirotor.ControlLoop.Exit
import Multirotor.ControlLoop.Basic
import Multirotor.Sweep
import Multirotor.Settings
import Multirotor.Mission
import Multirotor.Terminal.Plain
import Multirotor.Terminal.Span
import Multirotor.CommandLine.Integer
import Multirotor.CommandLine.Arguments
import Multirotor.CommandLine.Reading
import Multirotor.CommandLine.Answer
import Multirotor.Main
import Multirotor.Proofs.Binary32.Rounding
import Multirotor.Proofs.Binary32.NearestEven
import Multirotor.Proofs.Binary32.Between
import Multirotor.Proofs.Binary32.Near
import Multirotor.Proofs.Binary32.Extremes
import Multirotor.Proofs.Binary32.Alike
import Multirotor.Proofs.Binary32.Order
import Multirotor.Proofs.Binary32.RoundAway
import Multirotor.Proofs.Binary32.Percent
import Multirotor.Proofs.Timer.Attempts
import Multirotor.Proofs.Timer.History
import Multirotor.Proofs.Timer.Isolation
import Multirotor.Proofs.Allocation.Leveling
import Multirotor.Proofs.Allocation.FiniteDemands
import Multirotor.Proofs.Allocation.UnitInterval
import Multirotor.Proofs.Allocation.Mirror
import Multirotor.Proofs.Allocation.ExactLaw
import Multirotor.Proofs.Allocation.Torque
import Multirotor.Proofs.Allocation.Shaping
import Multirotor.Proofs.Allocation.PureThrust
import Multirotor.Proofs.Allocation.RowOrder
import Multirotor.Proofs.Mixer.Reachable
import Multirotor.Proofs.Esc.Nanoseconds
import Multirotor.Proofs.Esc.PulseWidth
import Multirotor.Proofs.Esc.PulseRange
import Multirotor.Proofs.Esc.Outcome
import Multirotor.Proofs.Esc.Signal
import Multirotor.Proofs.Esc.ArmingPulse
import Multirotor.Proofs.Mixer.Frame
import Multirotor.Proofs.Mixer.Execution
import Multirotor.Proofs.Mixer.Cleared
import Multirotor.Proofs.Mixer.Arming
import Multirotor.Proofs.Mixer.Release
import Multirotor.Proofs.Mixer.Representation
import Multirotor.Proofs.Mixer.Buffer
import Multirotor.Proofs.Mixer.Service
import Multirotor.Proofs.Mixer.SlotOrder
import Multirotor.Proofs.Mailbox.Publications
import Multirotor.Proofs.Mailbox.Registers
import Multirotor.Proofs.ControlLoop.Cycle
import Multirotor.Proofs.ControlLoop.Run
import Multirotor.Proofs.ControlLoop.Landing
import Multirotor.Proofs.ControlLoop.Preflight
import Multirotor.Proofs.ControlLoop.SequenceCheck
import Multirotor.Proofs.ControlLoop.CommandBits
import Multirotor.Proofs.ControlLoop.LatestCommand
import Multirotor.Proofs.Mixer.Smooth
import Multirotor.Proofs.ControlLoop.Steady
import Multirotor.Proofs.CommandLine.Accepted
import Multirotor.Proofs.Settings.Store
import Multirotor.Proofs.Sweep.Publications
import Multirotor.Proofs.Mission.BringUp
import Multirotor.Proofs.Mission.Shutdown
import Multirotor.Proofs.Esc.Interpolation
import Multirotor.Proofs.ControlLoop.CycleLimit
import Multirotor.Proofs.ControlLoop.Waits
import Multirotor.Proofs.ControlLoop.Reports
import Multirotor.Proofs.Sweep.Ramps
import Multirotor.Proofs.Mission.WholeSweep
