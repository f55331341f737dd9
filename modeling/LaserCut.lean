import LaserCut.Main
import LaserCut.Proofs.Decimal.Digits
import LaserCut.Proofs.Text.Lines
import LaserCut.Job.Gcode
import LaserCut.Proofs.Decimal.Reading
import LaserCut.Proofs.Decimal.Layout
import LaserCut.Proofs.Machine.Word
import LaserCut.Proofs.Decimal.Double
import LaserCut.Proofs.Decimal.Whole
import LaserCut.Proofs.Decimal.WholeText
import LaserCut.Proofs.Machine.Limits
import LaserCut.Proofs.Machine.Lines
import LaserCut.Proofs.Machine.DataLines
import LaserCut.Proofs.Machine.Running
import LaserCut.Proofs.Machine.Encoded
import LaserCut.Proofs.Document.RoundTrip
import LaserCut.Proofs.Machine.ReadBack
import LaserCut.Proofs.Machine.Rates
import LaserCut.Proofs.Machine.RasterBlocks
import LaserCut.Proofs.Machine.Moves
import LaserCut.Proofs.Job.History
import LaserCut.Proofs.Decimal.Scientific
import LaserCut.Proofs.Decimal.Places
import LaserCut.Proofs.Decimal.Reread
import LaserCut.Proofs.Stats
import LaserCut.Proofs.Machine.Settled
import LaserCut.Proofs.Decimal.Shortest
import LaserCut.Proofs.Document.Decimals
import LaserCut.Proofs.Decimal.Finite
import LaserCut.Proofs.Document.Accepted
import LaserCut.Proofs.Job.Import
import LaserCut.Proofs.Lasertag
import LaserCut.Proofs.Machine.Frame
import LaserCut.Proofs.Job.Colors
import LaserCut.Proofs.Decimal.Order
import LaserCut.Proofs.Decimal.Sums
import LaserCut.Proofs.Geometry.Join
import LaserCut.Proofs.Job.Bounds
import LaserCut.Proofs.Document.GivenStats
import LaserCut.Proofs.Decimal.FixedText
import LaserCut.Proofs.Geometry.Reach
import LaserCut.Proofs.Decimal.Roots
import LaserCut.Proofs.Geometry.Division
import LaserCut.Proofs.Job.Division
import LaserCut.Proofs.Geometry.Exact
import LaserCut.Proofs.Machine.Grammar
import LaserCut.Proofs.Settings.File
import LaserCut.Proofs.Document.Kinds
import LaserCut.Proofs.Decimal.Raising
import LaserCut.Proofs.Machine.Constrained
import LaserCut.Proofs.Machine.Comments
import LaserCut.Proofs.Job.Scopes
