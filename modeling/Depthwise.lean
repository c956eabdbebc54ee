import Depthwise.Affine
import Depthwise.Binary.Arithmetic
import Depthwise.Binary.Bounded
import Depthwise.Binary.Format
import Depthwise.Binary.Interchange
import Depthwise.Binary.Round
import Depthwise.Bitwise
import Depthwise.Buffer
import Depthwise.CommandLine.Arguments
import Depthwise.CommandLine.Execute
import Depthwise.Config
import Depthwise.Contrast
import Depthwise.Convolution
import Depthwise.Counting
import Depthwise.Decimal.Fixed
import Depthwise.Decimal.Shortest
import Depthwise.Failure
import Depthwise.Fault
import Depthwise.FixedPoint.Params
import Depthwise.FixedPoint.Requantize
import Depthwise.History
import Depthwise.Kernel.Call
import Depthwise.Kernel.Scalar
import Depthwise.Kernel.Shipped
import Depthwise.Kernel.Vector
import Depthwise.Main
import Depthwise.Metrics
import Depthwise.Output
import Depthwise.Parameters
import Depthwise.Proofs.Binary.Error
import Depthwise.Proofs.Binary.Rounding
import Depthwise.Proofs.Binary.Values
import Depthwise.Proofs.Buffers
import Depthwise.Proofs.CommandLine
import Depthwise.Proofs.Computations
import Depthwise.Proofs.Config
import Depthwise.Proofs.Config.Acceptance
import Depthwise.Proofs.Contrast
import Depthwise.Proofs.Convolution
import Depthwise.Proofs.FixedPoint.Accuracy
import Depthwise.Proofs.FixedPoint.Lanes
import Depthwise.Proofs.FixedPoint.Nearest
import Depthwise.Proofs.FixedPoint.Requantize
import Depthwise.Proofs.FixedPoint.Rounding
import Depthwise.Proofs.FixedPoint.Scale
import Depthwise.Proofs.History
import Depthwise.Proofs.History.Bookkeeping
import Depthwise.Proofs.History.Groups
import Depthwise.Proofs.Kernel.Agreement
import Depthwise.Proofs.Kernel.Reference
import Depthwise.Proofs.Kernel.Rows
import Depthwise.Proofs.Kernel.Scalar
import Depthwise.Proofs.Kernel.Sizes
import Depthwise.Proofs.Kernel.Vector
import Depthwise.Proofs.Matrix
import Depthwise.Proofs.Output
import Depthwise.Proofs.Quantization.Deviation
import Depthwise.Proofs.Quantization.Expected
import Depthwise.Proofs.Quantization.Parameters
import Depthwise.Proofs.Quantization.Saturation
import Depthwise.Proofs.Quantization.Scale
import Depthwise.Proofs.Random.Draws
import Depthwise.Proofs.Scenario
import Depthwise.Proofs.Scenario.Sizes
import Depthwise.Proofs.Session.Accounts
import Depthwise.Proofs.Session.Comparison
import Depthwise.Proofs.Session.Constant
import Depthwise.Proofs.Session.Detection
import Depthwise.Proofs.Session.Endings
import Depthwise.Proofs.Session.Examination
import Depthwise.Proofs.Session.Excess
import Depthwise.Proofs.Session.Ledger
import Depthwise.Proofs.Session.Overshoot
import Depthwise.Proofs.Session.Reached
import Depthwise.Proofs.Session.Regeneration
import Depthwise.Proofs.Session.Shipped
import Depthwise.Proofs.Session.Stages
import Depthwise.Proofs.Session.Tests
import Depthwise.Proofs.Session.Verdict
import Depthwise.Proofs.Text
import Depthwise.Proofs.Trial.Draws
import Depthwise.Proofs.Trial.Sizes
import Depthwise.Proofs.Weights
import Depthwise.Random.Entropy
import Depthwise.Random.Stream
import Depthwise.Ranking.Merge
import Depthwise.Ranking.Reach
import Depthwise.Ranking.Runs
import Depthwise.Report.Summary
import Depthwise.Report.Value
import Depthwise.Sample
import Depthwise.Scenario
import Depthwise.Session.State
import Depthwise.Session.Suite
import Depthwise.Session.Trial
import Depthwise.Shape
import Depthwise.Text.Integer
import Depthwise.Text.Printable
import Depthwise.Text.Quoted
import Depthwise.Text.Wording
import Depthwise.Trial.Buffers
import Depthwise.Trial.Draw
import Depthwise.Weights
import Depthwise.Proofs.Binary.Conversion
import Depthwise.Proofs.FixedPoint.Decoding
import Depthwise.Proofs.Quantization.Coverage
import Depthwise.Proofs.Weights.Packing
import Depthwise.Proofs.Kernel.Isolation
import Depthwise.Proofs.Output.Partition
import Depthwise.Proofs.Convolution.Exactness
import Depthwise.Proofs.Kernel.ShortBuffers
import Depthwise.Proofs.Binary.Order
import Depthwise.Proofs.Metrics
import Depthwise.Proofs.Session.Exceeding
import Depthwise.Proofs.Trial.Generation
import Depthwise.Proofs.History.Worst
import Depthwise.Proofs.Config.Tiles
import Depthwise.Proofs.Ranking.Runs
