import LatencyLog.Series.Summary
import LatencyLog.Tally
import LatencyLog.Topology

/-!
# Reports

A report is what one run finds: how the lines of the logs were counted, how many records were left
of each kind, and what became of every series, the RDTSC tags first and then the hops. It has two
written forms, one for a reader and one for a renderer of charts.
-/

namespace LatencyLog

/-- The series of one RDTSC tag. -/
structure TagReport where
  tag : String
  outcome : Outcome
deriving DecidableEq

/-- The series of one hop. -/
structure HopReport where
  hop : Hop
  outcome : Outcome
deriving DecidableEq

structure Report where
  /-- The frequency by which cycles were converted. -/
  ghz : Binary64
  /-- Lines as they were read, repetitions included. -/
  tally : Tally
  /-- The number of RDTSC records without repetitions. -/
  rdtscRecords : Nat
  /-- The number of TTT records without repetitions. -/
  tttRecords : Nat
  rdtsc : List TagReport
  hops : List HopReport
deriving DecidableEq

/-- No record of either kind was left. -/
def Report.isEmpty (r : Report) : Bool := decide (r.rdtscRecords = 0 ∧ r.tttRecords = 0)

end LatencyLog
