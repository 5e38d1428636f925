import LatencyLog.Main
import LatencyLog.Proofs.Binary64.Zeros
import LatencyLog.Proofs.FirstOccurrence
import LatencyLog.Proofs.StableSort
import LatencyLog.Proofs.Store.Arrivals
import LatencyLog.Proofs.Store.NormalForm
import LatencyLog.Proofs.Analysis.RepeatedFiles
import LatencyLog.Proofs.Analysis.ArrivalOrder
import LatencyLog.Proofs.Analysis.Independence
import LatencyLog.Proofs.EachAfter
import LatencyLog.Proofs.Transit.Neighbours
import LatencyLog.Proofs.Binary64.Comparison
import LatencyLog.Proofs.Binary64.TotalOrder
import LatencyLog.Proofs.Transit.Pairing
import LatencyLog.Proofs.Transit.Alternation
import LatencyLog.Proofs.Series.Counting
import LatencyLog.Proofs.Series.Shape
import LatencyLog.Proofs.Analysis.Sufficiency
import LatencyLog.Proofs.Binary64.Rounding
import LatencyLog.Proofs.Series.Ranks
import LatencyLog.Proofs.Text.Cutting
import LatencyLog.Proofs.Text.Decoding
import LatencyLog.Proofs.Store.Sources
import LatencyLog.Proofs.Store.LineEndings
import LatencyLog.Proofs.Store.Counters
import LatencyLog.Proofs.Store.Accounts
import LatencyLog.Proofs.Store.Tags
import LatencyLog.Proofs.Text.Trimming
import LatencyLog.Proofs.Decimal.Characters
import LatencyLog.Proofs.LogLine.Columns
import LatencyLog.Proofs.LogLine.Verdict
import LatencyLog.Proofs.LogLine.MissingTag
import LatencyLog.Proofs.Binary64.Grid
import LatencyLog.Proofs.Binary64.Nearness
import LatencyLog.Proofs.Binary64.Heights
import LatencyLog.Proofs.Binary64.Interpolation
import LatencyLog.Proofs.Series.Positions
import LatencyLog.Proofs.Series.Trimming
import LatencyLog.Proofs.Series.Reordering
import LatencyLog.Proofs.Series.Outliers
import LatencyLog.Proofs.Series.Means
import LatencyLog.Proofs.Series.Numbers
import LatencyLog.Proofs.Json.Nulls
import LatencyLog.Proofs.Report.Nulls
import LatencyLog.Proofs.Analysis.Numbers
import LatencyLog.Proofs.Analysis.TimeOrder
import LatencyLog.Proofs.Analysis.Additions
import LatencyLog.Proofs.Analysis.Partition
import LatencyLog.Proofs.Decimal.Digits
import LatencyLog.Proofs.Decimal.ReadBack
import LatencyLog.Proofs.Json.Escaping
import LatencyLog.Proofs.Json.Numerals
import LatencyLog.Proofs.Json.FiniteNumbers
import LatencyLog.Proofs.Json.TokenTrees
import LatencyLog.Proofs.Json.Layouts
import LatencyLog.Proofs.Text.Times
import LatencyLog.Proofs.Report.Charts
import LatencyLog.Proofs.Topology.RoundTrip
import LatencyLog.Proofs.Report.ChartTexts
import LatencyLog.Proofs.Files.Paths
import LatencyLog.Proofs.Files.Writing
import LatencyLog.Proofs.OneByOne
import LatencyLog.Proofs.Glob.Order
import LatencyLog.Proofs.Glob.LongPaths
import LatencyLog.Proofs.Run.AllOrNothing
import LatencyLog.Proofs.Config.Resolution
import LatencyLog.Proofs.Series.Classes
import LatencyLog.Proofs.Series.Distributions
import LatencyLog.Proofs.Text.Stamps
import LatencyLog.Proofs.Store.Instants
import LatencyLog.Proofs.Text.StampOrder
import LatencyLog.Proofs.Files.Faults
import LatencyLog.Proofs.Store.FailedFiles
import LatencyLog.Proofs.Analysis.HopNames
import LatencyLog.Proofs.Binary64.WholeNumbers
import LatencyLog.Proofs.Decimal.WholeLiterals
import LatencyLog.Proofs.Decimal.TwoPlaces
import LatencyLog.Proofs.LatencyText.Reading
import LatencyLog.Proofs.LatencyText.Ladder
import LatencyLog.Proofs.LatencyText.Order
import LatencyLog.Proofs.Binary64.Quotients
import LatencyLog.Proofs.Store.CycleReadings
import LatencyLog.Proofs.Transit.WholeCounters
import LatencyLog.Proofs.Binary64.Between
import LatencyLog.Proofs.Series.RankBounds
import LatencyLog.Proofs.Series.Quantiles
import LatencyLog.Proofs.Series.MeanBounds
import LatencyLog.Proofs.Report.Parts
import LatencyLog.Proofs.Binary64.Division
import LatencyLog.Proofs.Series.RollingMeans
import LatencyLog.Proofs.Series.Units
