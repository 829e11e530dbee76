import BraceLift.Text.Basic
import BraceLift.Text.Blank
import BraceLift.Text.Lines
import BraceLift.Text.Replace
import BraceLift.Text.Decimal
import BraceLift.Text.Ranges
import BraceLift.Text.Unprintable
import BraceLift.Text.Quoted
import BraceLift.Text.Alphanumeric
import BraceLift.Text.Terminal
import BraceLift.BraceTally
import BraceLift.Line
import BraceLift.File.Path
import BraceLift.Job
import BraceLift.Log.Record
import BraceLift.Excerpt
import BraceLift.Log.Wording
import BraceLift.Block
import BraceLift.Tail
import BraceLift.Document
import BraceLift.File.Fault
import BraceLift.File.Tree
import BraceLift.File.Walk
import BraceLift.File.Change
import BraceLift.Job.Failure
import BraceLift.Job.Run
import BraceLift.CommandLine.Switch
import BraceLift.CommandLine.Refusal
import BraceLift.CommandLine.Setting
import BraceLift.CommandLine.Parse
import BraceLift.Log.Rule
import BraceLift.Log.Filter
import BraceLift.Invocation
import BraceLift.Main
import BraceLift.Proofs.Block.Nesting
import BraceLift.Proofs.Block.Scan
import BraceLift.Proofs.Block.Extent
import BraceLift.Proofs.File.Growth
import BraceLift.Proofs.File.Effect
import BraceLift.Proofs.Text.Pieces
import BraceLift.Proofs.File.Lineage
import BraceLift.Proofs.File.Room
import BraceLift.Proofs.Document.Compose
import BraceLift.Proofs.Job.Stages
import BraceLift.Proofs.Job.Session
import BraceLift.Proofs.Job.Frame
import BraceLift.Proofs.Job.Obstacle
import BraceLift.Proofs.Job.Trace
import BraceLift.Proofs.Block.Phases
import BraceLift.Proofs.Block.Streaming
import BraceLift.Proofs.Document.Strictness
import BraceLift.Proofs.Text.LineEnds
import BraceLift.Proofs.Block.Ends
import BraceLift.Proofs.Block.Conserved
import BraceLift.Proofs.Block.Again
import BraceLift.Proofs.Block.Trace
import BraceLift.Proofs.Tail.Kept
import BraceLift.Proofs.Document.Context
import BraceLift.Proofs.Document.Reading
import BraceLift.Proofs.Block.Matching
import BraceLift.Proofs.Text.Decimal
import BraceLift.Proofs.CommandLine.Settings
import BraceLift.Proofs.CommandLine.Reading
import BraceLift.Proofs.CommandLine.Taking
import BraceLift.Proofs.CommandLine.RoundTrip
import BraceLift.Proofs.Invocation.Outcome
import BraceLift.Proofs.Invocation.Logging
import BraceLift.Proofs.Document.Anchored
import BraceLift.Proofs.Block.Bound
import BraceLift.Proofs.Block.Words
import BraceLift.Proofs.Tail.Qualified
import BraceLift.Proofs.Tail.Dropped
import BraceLift.Proofs.Tail.Rules
import BraceLift.Proofs.File.Settled
import BraceLift.Proofs.Job.Repeat
import BraceLift.Proofs.CommandLine.Exclusive
import BraceLift.Proofs.Text.Encoding
import BraceLift.Proofs.Line.Marker
import BraceLift.Proofs.Line.Indent
import BraceLift.Proofs.Line.Bytes
