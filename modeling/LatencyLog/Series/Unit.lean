import LatencyLog.Binary64.Arithmetic
import LatencyLog.Binary64.Order

/-!
# Units and kinds of series

The values of a series are shown in one unit, chosen by the mean of the series. A series of point
durations is shown in nanoseconds or microseconds, one of hops in milliseconds also. The bounds are
inclusive: a mean of exactly 1000 ns is shown in microseconds.
-/

namespace LatencyLog

inductive LatencyUnit where
  | nanoseconds
  | microseconds
  | milliseconds
deriving DecidableEq

namespace LatencyUnit

def name : LatencyUnit → String
  | nanoseconds => "nanoseconds"
  | microseconds => "microseconds"
  | milliseconds => "milliseconds"

def symbol : LatencyUnit → String
  | nanoseconds => "ns"
  | microseconds => "μs"
  | milliseconds => "ms"

/-- Nanoseconds to the unit. -/
def nanos : LatencyUnit → Nat
  | nanoseconds => 1
  | microseconds => 1000
  | milliseconds => 1000000

def divisor (u : LatencyUnit) : Binary64 := .ofNat u.nanos

/-- Nanoseconds in this unit. -/
def scale (u : LatencyUnit) (nanos : Binary64) : Binary64 := nanos / u.divisor

end LatencyUnit

/-- What a series measures. -/
inductive SeriesKind where
  /-- A duration at one point. -/
  | point
  /-- The transit of a hop. -/
  | hop
deriving DecidableEq

namespace SeriesKind

def name : SeriesKind → String
  | point => "point"
  | hop => "hop"

/-- The unit for a series with this mean, in nanoseconds. -/
def unitFor (kind : SeriesKind) (mean : Binary64) : LatencyUnit :=
  let reaches (u : LatencyUnit) := u.divisor.le mean
  match kind with
  | point => if reaches .microseconds then .microseconds else .nanoseconds
  | hop =>
    if reaches .milliseconds then .milliseconds
    else if reaches .microseconds then .microseconds
    else .nanoseconds

end SeriesKind

end LatencyLog
