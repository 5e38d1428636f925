import LatencyLog.Binary64.Arithmetic
import LatencyLog.Decimal.Layout
import LatencyLog.Report.Basic

/-!
# Reports for a reader

Below a head with the counts, the text of a report makes a list of statements (`Statement`): first
the RDTSC part, then the hop part. A statement is a notice that there is nothing to report, or the
block of one series. A block says either how its series is distributed or how many usable values
there were.

Of a distribution it gives latencies, each in a unit of its own (`latencyText`). A whole number of
nanoseconds below 1000 is written as it is. From there on it is written with two decimal places in
microseconds, milliseconds or seconds; which of them, the whole number decides before anything is
rounded.
-/

namespace LatencyLog

/-! ## Latencies -/

/-- A number of nanoseconds divided by a unit, to two places. -/
def inUnit (nanos unit : Nat) : String :=
  String.ofList (Decimal.fixed (Binary64.ofNat nanos / Binary64.ofNat unit))

/-- Nanoseconds as text with a unit. -/
def latencyText (nanos : Nat) : String :=
  if nanos < 1000 then toString nanos ++ " ns"
  else if nanos < 1000000 then inUnit nanos 1000 ++ " μs"
  else if nanos < 1000000000 then inUnit nanos 1000000 ++ " ms"
  else inUnit nanos 1000000000 ++ " s"

/-! ## Statements -/

/-- What is said about a series, under the name that its mean has there. -/
def Outcome.text (meanLabel : String) : Outcome → String
  | .summarized s =>
    let d := s.distribution
    "   Observations: " ++ toString s.count ++ ", " ++ meanLabel ++ ": " ++
      String.ofList (Decimal.fixed s.meanNanos) ++ " ns (" ++ s.unit.name ++ ")\n" ++
      "   P50: " ++ latencyText d.p50 ++ "  P90: " ++ latencyText d.p90 ++
      "  P99: " ++ latencyText d.p99 ++ "  P99.9: " ++ latencyText d.p999 ++
      "  Max: " ++ latencyText d.max ++ "\n"
  | .insufficient usable =>
    "   Not enough data points to plot (" ++ toString usable ++ " usable).\n"

namespace Report

/-- One thing that the text says below its head. -/
inductive Statement where
  | noRdtsc
  | noTtt
  | noHops
  | tag (series : TagReport)
  | hop (series : HopReport)
deriving DecidableEq

namespace Statement

def text : Statement → String
  | noRdtsc => "\nNo RDTSC data to report.\n"
  | noTtt => "\nNo TTT data to report.\n"
  | noHops => "\nNo hops configured.\n"
  | tag series => "\nRDTSC " ++ series.tag ++ "\n" ++ series.outcome.text "Mean Latency"
  | hop series => "\nHOP " ++ series.hop.name ++ "\n" ++ series.outcome.text "Mean Hop Latency"

end Statement

/-- The notice, if any, and the blocks of the RDTSC part. -/
def rdtscPart (r : Report) : List Statement :=
  (if r.rdtscRecords = 0 then [.noRdtsc] else []) ++ r.rdtsc.map .tag

/-- The notice, if any, and the blocks of the hop part. -/
def hopPart (r : Report) : List Statement :=
  (if r.tttRecords = 0 then [.noTtt] else if r.hops.isEmpty then [.noHops] else []) ++
    r.hops.map .hop

/-- The box at the top, and the counts. -/
def head (r : Report) : String :=
  "╔══════════════════════════════════════════════════════════════╗\n" ++
  "║                   TITAN LATENCY ANALYSIS                     ║\n" ++
  "╚══════════════════════════════════════════════════════════════╝\n" ++
  "Lines: " ++ toString r.tally.lines.toNat ++
  "  Accepted RDTSC lines: " ++ toString r.tally.rdtsc.toNat ++
  "  Accepted TTT lines: " ++ toString r.tally.ttt.toNat ++
  "  Discarded: " ++ toString r.tally.discarded.toNat ++
  "  CPU: " ++ String.ofList (Decimal.fixed r.ghz) ++ " GHz\n" ++
  "Records after dedup: RDTSC: " ++ toString r.rdtscRecords ++
  "  TTT: " ++ toString r.tttRecords ++ "\n"

def text (r : Report) : String :=
  r.head ++ String.join ((r.rdtscPart ++ r.hopPart).map Statement.text)

end Report

end LatencyLog
