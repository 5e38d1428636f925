import LatencyLog.Binary64.Arithmetic
import LatencyLog.Binary64.Order
import LatencyLog.TimeOfDay

/-!
# Series

A series is a list of latencies with the times at which they were seen. What is computed of one, and
needs nothing else, is here: means, quantiles, and trimming by quantiles.

The mean of a list is its sum from left to right, divided by its length. The rolling mean has the
mean of the last `window` values at each position, and nothing where there are not that many; each
window is summed anew, so a value that has left the window leaves no trace. It cuts a window out of
an array for each position; as lists go, that is so many values from where the window starts
(`getElem?_rollingMean`).

The quantile `q` of a sorted list lies at position `q * (n - 1)`, between the values at the whole
positions around it, as far along as the position is (`quantile?`). A series loses its outliers by
`trim`: the points strictly between the first and the ninety-ninth percentile stay. Where that would
leave nothing, as with equal values, the series stays as it is.
-/

namespace LatencyLog

/-- A latency, in nanoseconds unless a unit says otherwise, and its time. -/
structure Point where
  time : TimeOfDay
  value : Binary64
deriving DecidableEq

/-- A value of a smoothed series; there is none before the first full window. -/
structure SmoothedPoint where
  time : TimeOfDay
  value : Option Binary64
deriving DecidableEq

namespace Series

/-! ## Means -/

/-- The arithmetic mean of at least one value. -/
def mean? (values : List Binary64) : Option Binary64 :=
  if values.isEmpty then none else some (Binary64.sum values / .ofNat values.length)

/-- The windows that a whole series is smoothed into. -/
def windowsPerSeries : Nat := 100

/-- The length of a window for a series of so many values. -/
def rollingWindow (count : Nat) : Nat := max 1 (count / windowsPerSeries)

/-- The values of the window that ends at a position. -/
def windowAt (values : Array Binary64) (window i : Nat) : List Binary64 :=
  (values.extract (i + 1 - window) (i + 1)).toList

/-- The mean of each full window; a window has at least one value. -/
def rollingMean (values : List Binary64) (window : Nat) : List (Option Binary64) :=
  let window := max window 1
  let array := values.toArray
  (List.range values.length).map fun i =>
    if i + 1 < window then none
    else some (Binary64.sum (windowAt array window i) / .ofNat window)

theorem windowAt_eq_take_drop {window i : Nat} (h : window ≤ i + 1) (values : List Binary64) :
    windowAt values.toArray window i = (values.drop (i + 1 - window)).take window := by
  have hwidth : i + 1 - (i + 1 - window) = window := by omega
  rw [windowAt, List.extract_toArray, List.extract_eq_take_drop, hwidth]

theorem length_rollingMean (values : List Binary64) (window : Nat) :
    (rollingMean values window).length = values.length := by
  rw [rollingMean, List.length_map, List.length_range]

theorem getElem?_rollingMean {values : List Binary64} {i : Nat} (hi : i < values.length)
    (window : Nat) :
    (rollingMean values window)[i]? = some
      (if i + 1 < max window 1 then none
        else some (Binary64.sum ((values.drop (i + 1 - max window 1)).take (max window 1)) /
          .ofNat (max window 1))) := by
  rw [rollingMean, List.getElem?_map, List.getElem?_range hi, Option.map_some]
  congr 1
  split
  · rfl
  · rename_i h
    rw [windowAt_eq_take_drop (Nat.le_of_not_lt h)]

/-! ## The window of a series -/

theorem rollingWindow_pos (count : Nat) : 0 < rollingWindow count := Nat.le_max_left _ _

/-- A series is no shorter than its window. -/
theorem rollingWindow_le {count : Nat} (h : 0 < count) : rollingWindow count ≤ count :=
  Nat.max_le.mpr ⟨h, Nat.div_le_self _ _⟩

/-! ## Quantiles -/

/-- The quantile of a sorted list, between neighbours in proportion. -/
def quantile? (sorted : List Binary64) (q : Binary64) : Option Binary64 :=
  if sorted.isEmpty then none
  else
    let last := sorted.length - 1
    let position := Binary64.ofNat last * q.clamp .zero .one
    let lower := position.floorWord
    let upper := min position.ceilWord last
    let fraction := position - .ofNat lower
    match sorted[lower]?, sorted[upper]? with
    | some a, some b => some (a + (b - a) * fraction)
    | _, _ => none

/-- The lower bound of trimming: 0.01. -/
def trimLow : Binary64 := .ofDecimal false 1 (-2)

/-- The upper bound of trimming: 0.99. -/
def trimHigh : Binary64 := .ofDecimal false 99 (-2)

/-- The points strictly between two values. -/
def strictlyBetween (low high : Binary64) (points : List Point) : List Point :=
  points.filter fun p => low.lt p.value && p.value.lt high

/-- The series without its outliers. -/
def trim (points : List Point) : List Point :=
  let sorted := Binary64.sort (points.map Point.value)
  match quantile? sorted trimLow, quantile? sorted trimHigh with
  | some low, some high =>
    let kept := strictlyBetween low high points
    if kept.isEmpty then points else kept
  | _, _ => points

end Series

end LatencyLog
