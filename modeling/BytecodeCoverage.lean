import BytecodeCoverage.Command.Basic
import BytecodeCoverage.Command.Options
import BytecodeCoverage.Coverage.Class
import BytecodeCoverage.Coverage.File
import BytecodeCoverage.Coverage.Line
import BytecodeCoverage.Decimal.Binary64
import BytecodeCoverage.Decimal.Hex
import BytecodeCoverage.Decimal.Literal
import BytecodeCoverage.Decimal.Numeral
import BytecodeCoverage.Decimal.Shortest
import BytecodeCoverage.Diagnostics
import BytecodeCoverage.Engine
import BytecodeCoverage.Event
import BytecodeCoverage.Fault
import BytecodeCoverage.Files.Path
import BytecodeCoverage.Files.Tree
import BytecodeCoverage.Flow
import BytecodeCoverage.Instruction
import BytecodeCoverage.Json.Display
import BytecodeCoverage.Json.Reader
import BytecodeCoverage.Json.Value
import BytecodeCoverage.Json.Writer
import BytecodeCoverage.Log
import BytecodeCoverage.Main
import BytecodeCoverage.Observer
import BytecodeCoverage.Proofs.Command.Endings
import BytecodeCoverage.Proofs.Command.Traces
import BytecodeCoverage.Proofs.Coverage.Classification
import BytecodeCoverage.Proofs.Coverage.Construction
import BytecodeCoverage.Proofs.Coverage.Counts
import BytecodeCoverage.Proofs.Coverage.Exposure
import BytecodeCoverage.Proofs.Coverage.Grouping
import BytecodeCoverage.Proofs.Coverage.Growth
import BytecodeCoverage.Proofs.Coverage.Profile
import BytecodeCoverage.Proofs.Coverage.Readings
import BytecodeCoverage.Proofs.Coverage.Registration
import BytecodeCoverage.Proofs.Coverage.Translation
import BytecodeCoverage.Proofs.Engine.Accumulation
import BytecodeCoverage.Proofs.Engine.Announcement
import BytecodeCoverage.Proofs.Engine.Commit
import BytecodeCoverage.Proofs.Engine.Dispatch
import BytecodeCoverage.Proofs.Engine.Failures
import BytecodeCoverage.Proofs.Engine.FunctionMarks
import BytecodeCoverage.Proofs.Engine.History
import BytecodeCoverage.Proofs.Engine.Recovery
import BytecodeCoverage.Proofs.Engine.Refusal
import BytecodeCoverage.Proofs.Engine.Rejection
import BytecodeCoverage.Proofs.Engine.Totals
import BytecodeCoverage.Proofs.Script.Conversion
import BytecodeCoverage.Proofs.Script.Counts
import BytecodeCoverage.Proofs.Script.Faults
import BytecodeCoverage.Proofs.Script.Marks
import BytecodeCoverage.Proofs.Script.Printed
import BytecodeCoverage.Proofs.Script.Reachability
import BytecodeCoverage.Proofs.Script.Records
import BytecodeCoverage.Proofs.Script.Signature
import BytecodeCoverage.Proofs.Script.Switches
import BytecodeCoverage.Proofs.Script.Translation
import BytecodeCoverage.Proofs.Script.Unresolved
import BytecodeCoverage.Proofs.Session.Isolation
import BytecodeCoverage.Proofs.Session.Numbers
import BytecodeCoverage.Proofs.Session.Pieces
import BytecodeCoverage.Proofs.Session.Registry
import BytecodeCoverage.Proofs.Session.Repetition
import BytecodeCoverage.Proofs.Session.Silence
import BytecodeCoverage.Proofs.Session.Texts
import BytecodeCoverage.Proofs.Session.Translation
import BytecodeCoverage.Proofs.Settings.SourceMap
import BytecodeCoverage.Proofs.Settings.Unforeseen
import BytecodeCoverage.Proofs.Shell.Loading
import BytecodeCoverage.Proofs.Shell.Refinement
import BytecodeCoverage.Proofs.Shell.Requests
import BytecodeCoverage.Proofs.Store.Absorption
import BytecodeCoverage.Proofs.Store.Density
import BytecodeCoverage.Proofs.Store.Difference
import BytecodeCoverage.Proofs.Store.Dump
import BytecodeCoverage.Proofs.Store.Legibility
import BytecodeCoverage.Proofs.Store.Progress
import BytecodeCoverage.Proofs.Store.Revision
import BytecodeCoverage.Proofs.Store.Slots
import BytecodeCoverage.Proofs.Text.Joining
import BytecodeCoverage.Proofs.Text.Runs
import BytecodeCoverage.Proofs.Trace.Fields
import BytecodeCoverage.Proofs.Trace.Layout
import BytecodeCoverage.Proofs.Trace.Records
import BytecodeCoverage.Relocation
import BytecodeCoverage.Report.Percent
import BytecodeCoverage.Report.Record
import BytecodeCoverage.Report.Table
import BytecodeCoverage.Room
import BytecodeCoverage.Script.Basic
import BytecodeCoverage.Script.Draft
import BytecodeCoverage.Script.Search
import BytecodeCoverage.Script.Successors
import BytecodeCoverage.Session
import BytecodeCoverage.Settings.DialectSettings
import BytecodeCoverage.Settings.Fault
import BytecodeCoverage.Settings.SourceMap
import BytecodeCoverage.Shell.Basic
import BytecodeCoverage.Shell.Journal
import BytecodeCoverage.Shell.Request
import BytecodeCoverage.Shell.Words
import BytecodeCoverage.Snapshot
import BytecodeCoverage.Store
import BytecodeCoverage.Text.Blank
import BytecodeCoverage.Text.CodeRange
import BytecodeCoverage.Text.Column
import BytecodeCoverage.Text.Digit
import BytecodeCoverage.Text.Lines
import BytecodeCoverage.Text.Printable
import BytecodeCoverage.Text.Quoted
import BytecodeCoverage.Text.Scan
import BytecodeCoverage.Text.Utf8
import BytecodeCoverage.Text.Word
import BytecodeCoverage.Trace.Dialect
import BytecodeCoverage.Trace.RecordReader
import BytecodeCoverage.Trace.Row
