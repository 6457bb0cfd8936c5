import BootFlow.Boot
import BootFlow.Candidate
import BootFlow.Config
import BootFlow.Device
import BootFlow.Diagnostics
import BootFlow.Enumeration
import BootFlow.Hardware.Cpu1900
import BootFlow.Hardware.Ports
import BootFlow.Hardware.SerialLine
import BootFlow.Hardware.Terminal
import BootFlow.Hardware.TickClock
import BootFlow.Keyboard
import BootFlow.Log
import BootFlow.Menu
import BootFlow.Order
import BootFlow.Platform.Basic
import BootFlow.Platform.Recorded
import BootFlow.Proofs.Platform.Action
import BootFlow.Proofs.Platform.Recorded
import BootFlow.Recovery
import BootFlow.Registry
import BootFlow.Scripted.Board
import BootFlow.Scripted.Rig
import BootFlow.Sequence
import BootFlow.Text
import BootFlow.Wait
import BootFlow.Proofs.Wait.Deadline
import BootFlow.Proofs.Cycle.Deeds
import BootFlow.Proofs.Cycle.Milestones
import BootFlow.Proofs.Cycle.Calls
import BootFlow.Proofs.Cycle.Handoff
import BootFlow.Proofs.Cycle.Visits
import BootFlow.Proofs.Sequence.Flatten
import BootFlow.Proofs.Wait.Keystroke
import BootFlow.Proofs.Menu.Steps
import BootFlow.Proofs.Scripted.Board
import BootFlow.Proofs.Menu.Calls
import BootFlow.Proofs.Menu.Selection
import BootFlow.Proofs.Boot.Halt
import BootFlow.Proofs.Registry.Promotion
import BootFlow.Proofs.Menu.Handover
import BootFlow.Proofs.Registry.Key
import BootFlow.Proofs.Registry.Enrolment
import BootFlow.Proofs.Registry.History
import BootFlow.Proofs.Boot.Cut
import BootFlow.Proofs.Menu.Headless
import BootFlow.Proofs.Text.Numeral
import BootFlow.Proofs.Order.Glob
import BootFlow.Proofs.Order.Segment
import BootFlow.Proofs.Device.Path
import BootFlow.Proofs.Order.Line
import BootFlow.Proofs.Order.Route
import BootFlow.Proofs.Order.Lookup
import BootFlow.Proofs.Menu.Registers
import BootFlow.Proofs.Menu.Course
import BootFlow.Proofs.Menu.Protocol
import BootFlow.Proofs.Scripted.Time
import BootFlow.Proofs.Menu.Duration
import BootFlow.Proofs.Menu.Stages
import BootFlow.Proofs.Boot.Front
import BootFlow.Proofs.Menu.Choice
import BootFlow.Proofs.Boot.Preference
import BootFlow.Proofs.Hardware.Receiver
import BootFlow.Proofs.Hardware.TypeAhead
import BootFlow.Proofs.Wait.Supply
import BootFlow.Proofs.Menu.Supply
import BootFlow.Proofs.Menu.Keys
import BootFlow.Proofs.Hardware.Containment
import BootFlow.Proofs.Order.Match
import BootFlow.Proofs.Registry.Order
import BootFlow.Proofs.Cycle.Turns
import BootFlow.Proofs.Cycle.Stage
import BootFlow.Proofs.Order.Rank
import BootFlow.Proofs.Device.Encoding
import BootFlow.Proofs.Log.Ring
import BootFlow.Proofs.Hardware.TickClock
import BootFlow.Proofs.Scripted.Moments
import BootFlow.Proofs.Menu.Rounds
import BootFlow.Proofs.Menu.DeviceList
import BootFlow.Proofs.Text.Reading
import BootFlow.Proofs.Config
import BootFlow.Proofs.Menu.NumberKeys
import BootFlow.Proofs.Registry.StrictOrder
import BootFlow.Proofs.Order.Characters
import BootFlow.Proofs.Order.StopMark
import BootFlow.Proofs.Order.Entries
import BootFlow.Proofs.Cycle.Retry
import BootFlow.Proofs.Hardware.Transmission
