import Hyperslab.ArrayKind
import Hyperslab.Number.Power
import Hyperslab.Number.Binary
import Hyperslab.Element
import Hyperslab.Text.Blank
import Hyperslab.Text.Digit
import Hyperslab.Text.Numeral
import Hyperslab.Text.Case
import Hyperslab.Number.Decimal
import Hyperslab.Number.Places
import Hyperslab.Number.Column
import Hyperslab.Shape
import Hyperslab.ArrayText
import Hyperslab.Literal
import Hyperslab.ArrayText.Host
import Hyperslab.ArrayText.Tensor
import Hyperslab.Fault
import Hyperslab.Device
import Hyperslab.Entry
import Hyperslab.MaskSpec
import Hyperslab.Snapshot
import Hyperslab.Text.Printable
import Hyperslab.Text.Quoted
import Hyperslab.Value
import Hyperslab.Literal.Host
import Hyperslab.Literal.Tensor
import Hyperslab.Interval
import Hyperslab.Layout
import Hyperslab.Layout.Reshape
import Hyperslab.Store
import Hyperslab.View
import Hyperslab.Operand
import Hyperslab.Backend
import Hyperslab.CommandLine.Arguments
import Hyperslab.Json.Token
import Hyperslab.Json.Reader
import Hyperslab.Json.Writer
import Hyperslab.Files
import Hyperslab.ShapeText
import Hyperslab.CommandLine.Request
import Hyperslab.Config
import Hyperslab.Resolution
import Hyperslab.Copy
import Hyperslab.Number.Metric
import Hyperslab.Route
import Hyperslab.Traffic
import Hyperslab.Log
import Hyperslab.Index.Item
import Hyperslab.Index.Token
import Hyperslab.Text.Lines
import Hyperslab.Index.Text
import Hyperslab.MaskSpec.Loose
import Hyperslab.Selection
import Hyperslab.Walk
import Hyperslab.Engine
import Hyperslab.CommandLine
import Hyperslab.Encoding.Bytes
import Hyperslab.Encoding.Archive
import Hyperslab.Encoding.ArrayFile
import Hyperslab.Encoding
import Hyperslab.Json.Plain
import Hyperslab.Literal.Spread
import Hyperslab.Main
import Hyperslab.View.Indexing
import Hyperslab.View.Setting
import Hyperslab.Session
import Hyperslab.Proofs.Indices
import Hyperslab.Proofs.Places
import Hyperslab.Proofs.Reshape
import Hyperslab.Proofs.Dense
import Hyperslab.Proofs.Run
import Hyperslab.Proofs.Cells
import Hyperslab.Proofs.Arrays
import Hyperslab.Proofs.Slots
import Hyperslab.Proofs.Walks
import Hyperslab.Proofs.Counts
import Hyperslab.Proofs.Selected
import Hyperslab.Proofs.Windows
import Hyperslab.Proofs.Copies
import Hyperslab.Proofs.Rows
import Hyperslab.Proofs.Slice
import Hyperslab.Proofs.Returns
import Hyperslab.Proofs.Writes
import Hyperslab.Proofs.Assign
import Hyperslab.Proofs.Gradient
import Hyperslab.Proofs.Adjoint
import Hyperslab.Proofs.Binding
import Hyperslab.Proofs.Masks
import Hyperslab.Proofs.Resolve
import Hyperslab.Proofs.ZeroStrides
import Hyperslab.Proofs.Visits
import Hyperslab.Proofs.Ends
import Hyperslab.Proofs.Origins
import Hyperslab.Proofs.Atomic
import Hyperslab.Proofs.Sessions
import Hyperslab.Proofs.Opening
import Hyperslab.Proofs.Forward
import Hyperslab.Proofs.Making
import Hyperslab.Proofs.Routes
import Hyperslab.Proofs.Success
import Hyperslab.Proofs.Kinds
import Hyperslab.Proofs.Spelling
import Hyperslab.Proofs.Grammar
import Hyperslab.Proofs.Aliases
import Hyperslab.Proofs.Placement
import Hyperslab.Proofs.Sharing
import Hyperslab.Proofs.Alike
import Hyperslab.Proofs.Handover
import Hyperslab.Proofs.Overlap
import Hyperslab.Proofs.Codec
import Hyperslab.Proofs.Ignored
import Hyperslab.Proofs.Stopping
import Hyperslab.Proofs.ReadOnly
import Hyperslab.Proofs.Planes
import Hyperslab.Proofs.Accounts
import Hyperslab.Proofs.Refusals
import Hyperslab.Proofs.Carets
import Hyperslab.Proofs.Rounding
import Hyperslab.Proofs.Patterns
import Hyperslab.Proofs.Shortest
import Hyperslab.Proofs.Numerals
import Hyperslab.Proofs.Documents
import Hyperslab.Proofs.Nesting
import Hyperslab.Proofs.Rereading
import Hyperslab.Proofs.Outputs
import Hyperslab.Proofs.Trimming
import Hyperslab.Proofs.ShapeTexts
import Hyperslab.Proofs.Letters
import Hyperslab.Proofs.Devices
