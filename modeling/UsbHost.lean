import UsbHost.Frame.Channels
import UsbHost.Request.Text
import UsbHost.Simulation.Session
import UsbHost.Proofs.Attempt
import UsbHost.Proofs.Ring.Positions
import UsbHost.Proofs.Trb.Control
import UsbHost.Proofs.Ring.Operations
import UsbHost.Proofs.Ring.Pending
import UsbHost.Proofs.Ring.Exchange
import UsbHost.Proofs.Slot.Binding
import UsbHost.Proofs.Endpoint.Plan
import UsbHost.Proofs.Endpoint.Alignment
import UsbHost.Proofs.Endpoint.Ledger
import UsbHost.Proofs.Endpoint.Settlement
import UsbHost.Proofs.Endpoint.Matching
import UsbHost.Proofs.Endpoint.Conversation
import UsbHost.Proofs.Endpoint.Retention
import UsbHost.Proofs.Endpoint.Continuation
import UsbHost.Proofs.Host.Handover
import UsbHost.Proofs.Host.Programs
import UsbHost.Proofs.Host.Endings
import UsbHost.Proofs.Host.Requests
import UsbHost.Proofs.Host.Moves
import UsbHost.Proofs.Host.Traffic
import UsbHost.Proofs.Host.Commands
import UsbHost.Proofs.Host.Inputs
import UsbHost.Proofs.Host.Management
import UsbHost.Proofs.Host.Reachable
import UsbHost.Proofs.Host.Board
import UsbHost.Proofs.Host.Retention
import UsbHost.Proofs.Host.InputContexts
import UsbHost.Proofs.Host.Neighbours
import UsbHost.Proofs.Host.Detach
import UsbHost.Proofs.Host.Attach
import UsbHost.Proofs.Ring.Posting
import UsbHost.Proofs.Queue.Arena
import UsbHost.Proofs.Queue.Chain
import UsbHost.Proofs.Queue.Completion
import UsbHost.Proofs.Device.Table
import UsbHost.Proofs.Endpoint.Closing
import UsbHost.Proofs.Endpoint.Routines
import UsbHost.Proofs.Host.Conduct
import UsbHost.Proofs.Host.Events
import UsbHost.Proofs.Host.Interrupts
import UsbHost.Proofs.Host.Reports
import UsbHost.Proofs.Host.Operations
import UsbHost.Proofs.Host.Administration
import UsbHost.Proofs.Host.Tables
import UsbHost.Proofs.Host.Coverage
import UsbHost.Proofs.Host.Journal
import UsbHost.Proofs.Host.Confinement
import UsbHost.Proofs.Host.Silence
import UsbHost.Proofs.Frame.Steps
import UsbHost.Proofs.Frame.Protocol
import UsbHost.Proofs.Queue.Vacancy
import UsbHost.Proofs.Frame.Window
import UsbHost.Proofs.Queue.Deadline
import UsbHost.Proofs.Queue.Agenda
import UsbHost.Proofs.Frame.Dispatch
import UsbHost.Proofs.Frame.Timing
import UsbHost.Proofs.Frame.Appointment
import UsbHost.Proofs.Frame.Refusal
import UsbHost.Proofs.Frame.Upkeep
import UsbHost.Proofs.Frame.Waiting
import UsbHost.Proofs.Frame.Course
import UsbHost.Proofs.Frame.Microframe
import UsbHost.Proofs.Frame.Parity
import UsbHost.Proofs.Host.Twins
import UsbHost.Proofs.Host.Lockstep
import UsbHost.Proofs.Host.Parking
import UsbHost.Proofs.Host.Counterparts
import UsbHost.Proofs.Host.Postponement
import UsbHost.Proofs.Frame.Offers
import UsbHost.Proofs.Endpoint.Placement
import UsbHost.Proofs.Endpoint.Addressing
import UsbHost.Proofs.Endpoint.Admission
import UsbHost.Proofs.Endpoint.Chunks
import UsbHost.Proofs.Host.Submission
import UsbHost.Proofs.Endpoint.Hearing
import UsbHost.Proofs.Endpoint.Stages
import UsbHost.Proofs.Endpoint.Packets
import UsbHost.Proofs.Endpoint.Deadlines
import UsbHost.Proofs.Endpoint.Expressible
import UsbHost.Proofs.Host.Timeouts
import UsbHost.Proofs.Endpoint.Awaited
import UsbHost.Proofs.Host.Bystanders
import UsbHost.Proofs.Host.Seats
import UsbHost.Proofs.Host.Synchronous
import UsbHost.Proofs.Ring.Accounting
import UsbHost.Proofs.Queue.Tickets
import UsbHost.Proofs.Queue.Sequence
import UsbHost.Proofs.Endpoint.Resubmission
import UsbHost.Proofs.Host.Resubmission
import UsbHost.Proofs.Frame.Placement
import UsbHost.Proofs.Frame.Progress
import UsbHost.Proofs.Frame.Boundary
import UsbHost.Proofs.Slot.Publication
import UsbHost.Proofs.Host.Occupancy
import UsbHost.Proofs.Trb.Drafts
import UsbHost.Proofs.Dma.Layout
import UsbHost.Proofs.Host.Configuration
import UsbHost.Proofs.Context.Fields
import UsbHost.Proofs.Device.SlotContext
import UsbHost.Proofs.Host.Service
import UsbHost.Proofs.Host.Servant
import UsbHost.Proofs.Host.PacketSize
import UsbHost.Proofs.Host.Reconfiguration
import UsbHost.Proofs.Dma.Placement
import UsbHost.Proofs.Context.Format
import UsbHost.Proofs.Context.Setters
