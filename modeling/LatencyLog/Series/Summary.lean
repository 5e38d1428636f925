import LatencyLog.Series.Histogram
import LatencyLog.Series.Basic
import LatencyLog.Series.Unit

/-!
# Summaries

Summarizing a series goes through five stages: values that are not positive and finite are dropped;
outliers are trimmed; the mean of the rest is taken; the mean picks a unit, to which the series is
scaled; and the scaled series is smoothed by a rolling mean with about a hundred windows.

A series with fewer than two usable values is not summarized. That is an outcome and no error.
-/

namespace LatencyLog

/-- Everything there is to show of a series. -/
structure Summary where
  kind : SeriesKind
  unit : LatencyUnit
  /-- The number of values left after trimming. -/
  count : Nat
  /-- The mean of the trimmed series, in nanoseconds. -/
  meanNanos : Binary64
  /-- The length of a smoothing window. -/
  window : Nat
  /-- The percentiles of the trimmed series, in nanoseconds. -/
  distribution : Distribution
  /-- The trimmed series in `unit`. -/
  raw : List Point
  /-- The rolling mean of `raw`, position by position. -/
  smoothed : List SmoothedPoint
deriving DecidableEq

/-- The mean in the unit of the summary. -/
def Summary.mean (s : Summary) : Binary64 := s.unit.scale s.meanNanos

/-- What became of a series. -/
inductive Outcome where
  | summarized (summary : Summary)
  /-- There were not enough usable values. -/
  | insufficient (usable : Nat)
deriving DecidableEq

namespace Series

/-- The number of usable values that a summary takes. -/
def minSamples : Nat := 2

/-- Whether there are enough points for a summary, should all of them be usable. -/
def isEnough (points : List Point) : Bool := decide (minSamples ≤ points.length)

/-- The points with a positive finite value. -/
def usable (points : List Point) : List Point := points.filter fun p => p.value.isUsable

/-- The summary of trimmed points with a given mean. -/
def describe (kind : SeriesKind) (trimmed : List Point) (mean : Binary64) : Summary :=
  let values := trimmed.map Point.value
  let unit := kind.unitFor mean
  let scaled := values.map unit.scale
  let window := rollingWindow scaled.length
  { kind
    unit
    count := values.length
    meanNanos := mean
    window
    distribution := (Histogram.empty.extend values).distribution
    raw := trimmed.zipWith (fun p value => ⟨p.time, value⟩) scaled
    smoothed := trimmed.zipWith (fun p value => ⟨p.time, value⟩) (rollingMean scaled window) }

/-- Summarizes a series of latencies in nanoseconds. -/
def summarize (kind : SeriesKind) (points : List Point) : Outcome :=
  let points := usable points
  if points.length < minSamples then .insufficient points.length
  else
    let trimmed := trim points
    match mean? (trimmed.map Point.value) with
    | some mean => .summarized (describe kind trimmed mean)
    | none => .insufficient 0

end Series

end LatencyLog
