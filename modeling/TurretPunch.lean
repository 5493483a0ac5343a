import TurretPunch.Check
import TurretPunch.CommandLine.Arguments
import TurretPunch.CommandLine.Job
import TurretPunch.CommandLine.Listing
import TurretPunch.CommandLine.Number
import TurretPunch.CommandLine.Performance
import TurretPunch.CommandLine.Preparation
import TurretPunch.CommandLine.Rehearsal
import TurretPunch.CommandLine.Switch
import TurretPunch.Decimal.Binary
import TurretPunch.Decimal.Fixed
import TurretPunch.Decimal.Layout
import TurretPunch.Decimal.Numeral
import TurretPunch.Decimal.Root
import TurretPunch.Decimal.Shortest
import TurretPunch.Decimal.Significant
import TurretPunch.Fault
import TurretPunch.Footprint
import TurretPunch.Json.Basic
import TurretPunch.Json.Display
import TurretPunch.Json.Printer
import TurretPunch.Json.Reader
import TurretPunch.Main
import TurretPunch.Operation
import TurretPunch.Order.Boundary
import TurretPunch.Order.Insertion
import TurretPunch.Order.Merge
import TurretPunch.Order.Runs
import TurretPunch.Press.Basic
import TurretPunch.Press.Replay
import TurretPunch.Program.Basic
import TurretPunch.Program.Comment
import TurretPunch.Program.Instruction
import TurretPunch.Program.Pattern
import TurretPunch.Program.Reader
import TurretPunch.Program.Statement
import TurretPunch.Program.Word
import TurretPunch.Proofs.Check.Requirement
import TurretPunch.Proofs.Check.Size
import TurretPunch.Proofs.Check.Warning
import TurretPunch.Proofs.CommandLine.Number
import TurretPunch.Proofs.Configuration.Entry
import TurretPunch.Proofs.Configuration.Loading
import TurretPunch.Proofs.Configuration.Refusal
import TurretPunch.Proofs.Configuration.Roundtrip
import TurretPunch.Proofs.Configuration.Setting
import TurretPunch.Proofs.Configuration.Station
import TurretPunch.Proofs.Configuration.Table
import TurretPunch.Proofs.Decimal.Bits
import TurretPunch.Proofs.Decimal.Exponent
import TurretPunch.Proofs.Decimal.Figure
import TurretPunch.Proofs.Decimal.Nearest
import TurretPunch.Proofs.Decimal.Number
import TurretPunch.Proofs.Decimal.Order
import TurretPunch.Proofs.Decimal.Rounding
import TurretPunch.Proofs.Decimal.Shortest
import TurretPunch.Proofs.Decimal.Value
import TurretPunch.Proofs.Json.Double
import TurretPunch.Proofs.Json.Number
import TurretPunch.Proofs.Json.Quotation
import TurretPunch.Proofs.Json.Return
import TurretPunch.Proofs.Json.Roundtrip
import TurretPunch.Proofs.Order.Sorting
import TurretPunch.Proofs.Outcome
import TurretPunch.Proofs.Press.Bounds
import TurretPunch.Proofs.Press.Coverage
import TurretPunch.Proofs.Press.Trail
import TurretPunch.Proofs.Program.Clash
import TurretPunch.Proofs.Program.Composition
import TurretPunch.Proofs.Program.Coordinate
import TurretPunch.Proofs.Program.Ending
import TurretPunch.Proofs.Program.Error
import TurretPunch.Proofs.Program.Harmless
import TurretPunch.Proofs.Program.History
import TurretPunch.Proofs.Program.Layout
import TurretPunch.Proofs.Program.Longest
import TurretPunch.Proofs.Program.Modal
import TurretPunch.Proofs.Program.Overlong
import TurretPunch.Proofs.Program.Places
import TurretPunch.Proofs.Program.Position
import TurretPunch.Proofs.Program.Reread
import TurretPunch.Proofs.Program.Scanner
import TurretPunch.Proofs.Program.Shape
import TurretPunch.Proofs.Program.SizeWord
import TurretPunch.Proofs.Program.Spelling
import TurretPunch.Proofs.Program.Tooling
import TurretPunch.Proofs.Program.Writing
import TurretPunch.Proofs.Session.Acceptance
import TurretPunch.Proofs.Session.Account
import TurretPunch.Proofs.Session.Afresh
import TurretPunch.Proofs.Session.Alarm
import TurretPunch.Proofs.Session.Arising
import TurretPunch.Proofs.Session.Drain
import TurretPunch.Proofs.Session.Equipment
import TurretPunch.Proofs.Session.Event
import TurretPunch.Proofs.Session.Guard
import TurretPunch.Proofs.Session.Halt
import TurretPunch.Proofs.Session.Lockstep
import TurretPunch.Proofs.Session.Log
import TurretPunch.Proofs.Session.Origin
import TurretPunch.Proofs.Session.Phase
import TurretPunch.Proofs.Session.Prediction
import TurretPunch.Proofs.Session.Quiet
import TurretPunch.Proofs.Session.Refusal
import TurretPunch.Proofs.Session.Release
import TurretPunch.Proofs.Session.Renewal
import TurretPunch.Proofs.Session.Residue
import TurretPunch.Proofs.Session.Saved
import TurretPunch.Proofs.Session.Schedule
import TurretPunch.Proofs.Session.Script
import TurretPunch.Proofs.Session.Succession
import TurretPunch.Proofs.Session.Trace
import TurretPunch.Proofs.Session.Turn
import TurretPunch.Proofs.Session.Waiting
import TurretPunch.Proofs.Storage.Document
import TurretPunch.Proofs.Storage.Saving
import TurretPunch.Proofs.Storage.Written
import TurretPunch.Proofs.Text.Encoding
import TurretPunch.Proofs.Text.Newline
import TurretPunch.Quantity
import TurretPunch.Report
import TurretPunch.Session.Basic
import TurretPunch.Session.Bench
import TurretPunch.Session.Notice
import TurretPunch.Session.Playback
import TurretPunch.Settings
import TurretPunch.Sheet
import TurretPunch.Storage.Basic
import TurretPunch.Storage.Document
import TurretPunch.Storage.Path
import TurretPunch.Storage.Saving
import TurretPunch.Text.Blank
import TurretPunch.Text.Capital
import TurretPunch.Text.Digit
import TurretPunch.Text.Line
import TurretPunch.Text.Points
import TurretPunch.Text.Printable
import TurretPunch.Text.Quoted
import TurretPunch.Text.Utf8
import TurretPunch.Tool.Basic
import TurretPunch.Tool.Standard
import TurretPunch.Turret
