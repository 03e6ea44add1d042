import Cadence.Main
import Cadence.Proofs.Text.UniversalNewlines
import Cadence.Proofs.Csv.Reading
import Cadence.Proofs.Csv.Writing
import Cadence.Proofs.Sampling.Marks
import Cadence.Proofs.Sampling.Stamps
import Cadence.Proofs.Text.Numerals
import Cadence.Proofs.Conversion.Meaning
import Cadence.Proofs.FileTree.Changes
import Cadence.Proofs.FileTree.Ways
import Cadence.Proofs.FileTree.Places
import Cadence.Proofs.Path.Names
import Cadence.Proofs.Conversion.Runs
import Cadence.Proofs.Conversion.OneLog
import Cadence.Proofs.Conversion.SeveralLogs
import Cadence.Proofs.FileTree.Frames
import Cadence.Proofs.Conversion.KeptLogs
import Cadence.Proofs.Pacing.Earliest
import Cadence.Proofs.Pacing.Range
import Cadence.Proofs.Conversion.Refusals
import Cadence.Proofs.Pacing.Elapsed
import Cadence.Proofs.Pacing.AnyStep
import Cadence.Proofs.Pacing.Results
import Cadence.Proofs.Pacing.FewerLines
import Cadence.Proofs.Csv.RoundTrip
import Cadence.Proofs.Csv.LimitedSinks
import Cadence.Proofs.Conversion.Bystanders
import Cadence.Proofs.Conversion.GrowingLogs
import Cadence.Proofs.CommandLine.Arguments
import Cadence.Proofs.CommandLine.Environment
import Cadence.Proofs.CommandLine.Program
import Cadence.Proofs.Text.LogLines
import Cadence.Proofs.Sampling.Grammar
import Cadence.Proofs.Sampling.RealTimes
import Cadence.Proofs.Pacing.CaughtUp
import Cadence.Proofs.Pacing.BeforeStart
import Cadence.Proofs.Text.Integers
import Cadence.Proofs.Time.Durations
import Cadence.Proofs.Text.ByteOrder
import Cadence.Proofs.Path.Steps
import Cadence.Proofs.Path.Order
import Cadence.Proofs.Conversion.Collecting
import Cadence.Proofs.Conversion.TablesAsLogs
import Cadence.Proofs.Conversion.Outputs
import Cadence.Proofs.Text.Trimming
import Cadence.Proofs.Configuration.Segments
import Cadence.Proofs.Configuration.Intervals
import Cadence.Proofs.Configuration.Jobs
import Cadence.Proofs.Conversion.LongNames
import Cadence.Proofs.Conversion.DerivedNames
