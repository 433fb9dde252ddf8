import LidarSweep.Assembler
import LidarSweep.Assembler.Stats
import LidarSweep.Bytes
import LidarSweep.Capture
import LidarSweep.Capture.Blocks
import LidarSweep.Capture.Ethernet
import LidarSweep.Capture.Legacy
import LidarSweep.Capture.Reader
import LidarSweep.Clock
import LidarSweep.Clock.GapCheck
import LidarSweep.CommandLine.Arguments
import LidarSweep.CommandLine.Grammar
import LidarSweep.Config
import LidarSweep.Config.Document
import LidarSweep.Device
import LidarSweep.Error
import LidarSweep.Format
import LidarSweep.Frame
import LidarSweep.Frame.Metadata
import LidarSweep.Frame.RangeGate
import LidarSweep.FrameBuffer
import LidarSweep.Geometry
import LidarSweep.Geometry.Table
import LidarSweep.Json
import LidarSweep.Json.Codec
import LidarSweep.Json.Printer
import LidarSweep.Json.Reader
import LidarSweep.Json.Record
import LidarSweep.Log
import LidarSweep.Main
import LidarSweep.Model
import LidarSweep.Packet
import LidarSweep.Packet.Builder
import LidarSweep.Packet.Header
import LidarSweep.Packet.Samples
import LidarSweep.Point
import LidarSweep.Point.Convert
import LidarSweep.Profile
import LidarSweep.Recording
import LidarSweep.ScanRate
import LidarSweep.Session
import LidarSweep.Session.Announcement
import LidarSweep.Session.Opening
import LidarSweep.Single
import LidarSweep.Single.Decimal
import LidarSweep.Single.Shortest
import LidarSweep.Source.Endpoint
import LidarSweep.Source.Manual
import LidarSweep.Source.Replay
import LidarSweep.Stream
import LidarSweep.Stream.Action
import LidarSweep.Stream.Control
import LidarSweep.Stream.Delivery
import LidarSweep.Stream.Halt
import LidarSweep.Stream.Lock
import LidarSweep.Stream.Machine
import LidarSweep.Stream.Pipeline
import LidarSweep.Stream.Recovery
import LidarSweep.Stream.Schedule
import LidarSweep.Stream.Start
import LidarSweep.SyncMode
import LidarSweep.Text.Duration
import LidarSweep.Text.Hex
import LidarSweep.Text.Integer
import LidarSweep.Text.Names
import LidarSweep.Text.Quoted
import LidarSweep.Proofs.Recording.Cut
import LidarSweep.Proofs.Assembler.Run
import LidarSweep.Proofs.Assembler.Sweep
import LidarSweep.Proofs.Assembler.Frames
import LidarSweep.Proofs.Stream.Core
import LidarSweep.Proofs.Stream.Halt
import LidarSweep.Proofs.Stream.Start
import LidarSweep.Proofs.Stream.Delivery
import LidarSweep.Proofs.Stream.Restart
import LidarSweep.Proofs.Stream.Sequential
import LidarSweep.Proofs.Stream.Standing
import LidarSweep.Proofs.Stream.Balance
import LidarSweep.Proofs.Stream.Stages
import LidarSweep.Proofs.Stream.Timing
import LidarSweep.Proofs.Stream.Activation
import LidarSweep.Proofs.Machine.Path
import LidarSweep.Proofs.Machine.Agenda
import LidarSweep.Proofs.Machine.Course
import LidarSweep.Proofs.Machine.Steering
import LidarSweep.Proofs.Machine.Order
import LidarSweep.Proofs.Machine.Stop
import LidarSweep.Proofs.Machine.Supply
import LidarSweep.Proofs.Machine.Calm
import LidarSweep.Proofs.Recovery.Tally
import LidarSweep.Proofs.Recovery.Feed
import LidarSweep.Proofs.Recovery.Bout
import LidarSweep.Proofs.Recovery.Attempt
import LidarSweep.Proofs.Recovery.Spending
import LidarSweep.Proofs.Recovery.GiveUp
import LidarSweep.Proofs.Machine.Audience
import LidarSweep.Proofs.Machine.Notices
import LidarSweep.Proofs.Machine.Rising
import LidarSweep.Proofs.Machine.Disclosure
import LidarSweep.Proofs.Machine.Pace
import LidarSweep.Proofs.Machine.Serial
import LidarSweep.Proofs.Machine.Interwoven
import LidarSweep.Proofs.Machine.Exclusion
import LidarSweep.Proofs.Machine.Overtaken
import LidarSweep.Proofs.Machine.Promise
import LidarSweep.Proofs.Machine.Woven
import LidarSweep.Proofs.Packet.Codec
import LidarSweep.Proofs.Checked
import LidarSweep.Proofs.Packet.Synthetic
import LidarSweep.Proofs.Assembler.Whole
import LidarSweep.Proofs.Assembler.Bounds
import LidarSweep.Proofs.Packet.Checked
import LidarSweep.Proofs.Assembler.Resync
import LidarSweep.Proofs.Assembler.Counters
import LidarSweep.Proofs.Clock.GapCheck
import LidarSweep.Proofs.Point.Reading
import LidarSweep.Proofs.Point.Seam
import LidarSweep.Proofs.FrameBuffer.Appending
import LidarSweep.Proofs.Geometry.Cache
import LidarSweep.Proofs.Recording.Reading
import LidarSweep.Proofs.Stream.Objection
import LidarSweep.Proofs.Machine.OneGo
import LidarSweep.Proofs.Machine.Telling
import LidarSweep.Proofs.Machine.Retreat
import LidarSweep.Proofs.Machine.Effort
import LidarSweep.Proofs.Machine.Muted
import LidarSweep.Proofs.Machine.Refusal
import LidarSweep.Proofs.Machine.Uncounted
import LidarSweep.Proofs.Machine.Afresh
import LidarSweep.Proofs.Frame.RangeGate
import LidarSweep.Proofs.Frame.Metadata
import LidarSweep.Proofs.Packet.Circle
import LidarSweep.Proofs.Clock.Timeline
import LidarSweep.Proofs.Stream.Verdict
import LidarSweep.Proofs.Stream.Untouched
import LidarSweep.Proofs.Stream.Isolation
import LidarSweep.Proofs.Capture.Datagram
import LidarSweep.Proofs.Capture.Legacy
import LidarSweep.Proofs.Capture.Payloads
import LidarSweep.Proofs.Json.Number
import LidarSweep.Proofs.Json.Grammar
import LidarSweep.Proofs.Json.Printing
import LidarSweep.Proofs.Json.Record
import LidarSweep.Proofs.Json.Codec
import LidarSweep.Proofs.Config.Document
