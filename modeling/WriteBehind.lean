import WriteBehind.Bytes
import WriteBehind.Command
import WriteBehind.CommandLine.Arguments
import WriteBehind.CommandLine.Help
import WriteBehind.CommandLine.Run
import WriteBehind.Disk
import WriteBehind.Fault
import WriteBehind.Image
import WriteBehind.Inspection.Basic
import WriteBehind.Inspection.Printer
import WriteBehind.Json.Cursor
import WriteBehind.Json.Defect
import WriteBehind.Json.Numeral
import WriteBehind.Json.Schema
import WriteBehind.Json.Text
import WriteBehind.Json.Value
import WriteBehind.Main
import WriteBehind.Number.Double
import WriteBehind.Number.Shortest
import WriteBehind.Pipeline.Dispatcher
import WriteBehind.Pipeline.KeyHash
import WriteBehind.Pipeline.Mailbox
import WriteBehind.Pipeline.Schedule
import WriteBehind.Pipeline.State
import WriteBehind.Pipeline.Worker
import WriteBehind.Record
import WriteBehind.Ring.Basic
import WriteBehind.Ring.Channel
import WriteBehind.Ring.Geometry
import WriteBehind.Ring.Header
import WriteBehind.Ring.Open
import WriteBehind.Ring.Store
import WriteBehind.Ring.Walk
import WriteBehind.Session.Desk
import WriteBehind.Session.Rings
import WriteBehind.Session.Service
import WriteBehind.Settings.Basic
import WriteBehind.Settings.Printer
import WriteBehind.Settings.Reader
import WriteBehind.Signal
import WriteBehind.Text.Blank
import WriteBehind.Text.Calendar
import WriteBehind.Text.Decimal
import WriteBehind.Text.Hex
import WriteBehind.Text.Invisible
import WriteBehind.Text.Quoted
import WriteBehind.Text.Terminal
import WriteBehind.Text.Utf8
import WriteBehind.Proofs.Image
import WriteBehind.Proofs.Ring.Description
import WriteBehind.Proofs.Ring.Places
import WriteBehind.Proofs.Ring.Layout
import WriteBehind.Proofs.Ring.Meeting
import WriteBehind.Proofs.Ring.Walking
import WriteBehind.Proofs.Ring.Sound
import WriteBehind.Proofs.Ring.Resize
import WriteBehind.Proofs.Ring.Opening
import WriteBehind.Proofs.Ring.Traffic
import WriteBehind.Proofs.Ring.Trace
import WriteBehind.Proofs.Ring.Cut
import WriteBehind.Proofs.Ring.Crash
import WriteBehind.Proofs.Ring.Drain
import WriteBehind.Proofs.Ring.Carry
import WriteBehind.Proofs.Ring.Limits
import WriteBehind.Proofs.Ring.Level
import WriteBehind.Proofs.Ring.Clearance
import WriteBehind.Proofs.Ring.Padding
import WriteBehind.Proofs.Ring.LastLap
import WriteBehind.Proofs.Ring.Counters
import WriteBehind.Proofs.Ring.Room
import WriteBehind.Proofs.Ring.Growth
import WriteBehind.Proofs.Ring.Taking
import WriteBehind.Proofs.Inspection
import WriteBehind.Proofs.Pipeline.Journal
import WriteBehind.Proofs.Pipeline.Slots
import WriteBehind.Proofs.Pipeline.Custody
import WriteBehind.Proofs.Pipeline.Boxes
import WriteBehind.Proofs.Pipeline.Cycle
import WriteBehind.Proofs.Pipeline.Books
import WriteBehind.Proofs.Pipeline.Delivery
import WriteBehind.Proofs.Pipeline.Shutdown
import WriteBehind.Proofs.Pipeline.Lanes
import WriteBehind.Proofs.Pipeline.Followed
import WriteBehind.Proofs.Pipeline.KeyOrder
import WriteBehind.Proofs.Pipeline.Restart
import WriteBehind.Proofs.Pipeline.Enqueue
import WriteBehind.Proofs.Pipeline.Idle
import WriteBehind.Proofs.Pipeline.Parking
import WriteBehind.Proofs.Grammar
import WriteBehind.Proofs.Ring.Mark
import WriteBehind.Ring.Storage
import WriteBehind.Proofs.Ring.Setback
import WriteBehind.Proofs.Pipeline.Rotation
import WriteBehind.Proofs.Pipeline.Admission
import WriteBehind.Host
import WriteBehind.Proofs.Ring.Refusal
import WriteBehind.Proofs.Compact
import WriteBehind.Proofs.Listing
import WriteBehind.Proofs.Quotation
import WriteBehind.Proofs.Distinct
import WriteBehind.Proofs.Readback
import WriteBehind.Proofs.Reload
import WriteBehind.Proofs.Pipeline.Exchange
