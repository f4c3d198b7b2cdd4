import FrameServer.Broadcast.Binding
import FrameServer.Broadcast.Loop
import FrameServer.Broadcast.Peer
import FrameServer.Broadcast.Seats
import FrameServer.Broadcast.Service
import FrameServer.Calendar.Date
import FrameServer.Calendar.Instant
import FrameServer.Capture.Camera
import FrameServer.Capture.Pattern
import FrameServer.Capture.Rate
import FrameServer.Capture.Scripted
import FrameServer.Capture.Settings
import FrameServer.Cli.Options
import FrameServer.Cli.Program
import FrameServer.Config.Basic
import FrameServer.Config.Limits
import FrameServer.Config.Load
import FrameServer.Config.Setting
import FrameServer.Control.Answer
import FrameServer.Control.Command
import FrameServer.Control.Scripted
import FrameServer.Control.Station
import FrameServer.Control.Waiting
import FrameServer.Decimal.Literal
import FrameServer.Decimal.Notation
import FrameServer.Decimal.Shortest
import FrameServer.Exchange
import FrameServer.Frame.Header
import FrameServer.Frame.Stream
import FrameServer.Frame.Word
import FrameServer.Main
import FrameServer.Number.Binary64
import FrameServer.Number.Rounding
import FrameServer.Number.Width
import FrameServer.Recording.Archive
import FrameServer.Recording.Basic
import FrameServer.Recording.ImageFile
import FrameServer.Recording.Logger
import FrameServer.Recording.Numbering
import FrameServer.Recording.Place
import FrameServer.Recording.Session
import FrameServer.Ring.Basic
import FrameServer.Ring.Capacity
import FrameServer.Ring.Slot
import FrameServer.Server.Basic
import FrameServer.Server.Closing
import FrameServer.Server.Running
import FrameServer.Text.Blank
import FrameServer.Text.Utf8
import FrameServer.Toml.Document
import FrameServer.Toml.Moment
import FrameServer.Toml.Number
import FrameServer.Toml.Reader
import FrameServer.Toml.Text
import FrameServer.Toml.Value
import FrameServer.Proofs.Ring.Cursor
import FrameServer.Proofs.Ring.Queue
import FrameServer.Proofs.Broadcast.Wire
import FrameServer.Proofs.Calendar.Date
import FrameServer.Proofs.Calendar.Instant
import FrameServer.Proofs.Recording.Names
import FrameServer.Proofs.Recording.Archive
import FrameServer.Proofs.Recording.Desk
import FrameServer.Proofs.Recording.Core
import FrameServer.Proofs.Recording.Drain
import FrameServer.Proofs.Recording.Ending
import FrameServer.Proofs.Recording.Sessions
import FrameServer.Proofs.Recording.Numbers
import FrameServer.Proofs.Recording.Images
import FrameServer.Proofs.Recording.Snap
import FrameServer.Proofs.Recording.Calls
import FrameServer.Proofs.Server.Flush
import FrameServer.Proofs.Frame.Stream
import FrameServer.Proofs.Ring.Newest
import FrameServer.Proofs.Broadcast.Ledger
import FrameServer.Proofs.Broadcast.Order
import FrameServer.Proofs.Broadcast.Deadline
import FrameServer.Proofs.Recording.Bench
import FrameServer.Proofs.Recording.Fill
import FrameServer.Proofs.Recording.Plan
import FrameServer.Proofs.Recording.Workers
import FrameServer.Proofs.Recording.Once
import FrameServer.Proofs.Ring.Contents
import FrameServer.Proofs.Ring.Provenance
import FrameServer.Proofs.Frame.Lossless
import FrameServer.Proofs.Broadcast.Seating
import FrameServer.Proofs.Broadcast.Isolation
import FrameServer.Proofs.Broadcast.Commands
import FrameServer.Proofs.Capture.Drawn
import FrameServer.Proofs.Server.Intact
import FrameServer.Proofs.Server.Refused
import FrameServer.Proofs.Broadcast.Idle
import FrameServer.Proofs.Config.Merging
import FrameServer.Proofs.Config.Fields
import FrameServer.Proofs.Config.Layers
import FrameServer.Proofs.Text.Blank
import FrameServer.Proofs.Decimal.Numeral
import FrameServer.Proofs.Control.Grammar
import FrameServer.Proofs.Control.Line
import FrameServer.Proofs.Control.Padding
import FrameServer.Proofs.Frame.Reading
import FrameServer.Proofs.Number.Binary64
import FrameServer.Proofs.Capture.Calls
import FrameServer.Proofs.Capture.LifeCycle
import FrameServer.Proofs.Capture.Delivery
import FrameServer.Proofs.Recording.Restarts
import FrameServer.Proofs.Calendar.Gregorian
import FrameServer.Proofs.Decimal.Fixed
import FrameServer.Proofs.Calendar.Reading
import FrameServer.Proofs.Recording.Log
import FrameServer.Proofs.Number.Arithmetic
import FrameServer.Proofs.Capture.Rate
