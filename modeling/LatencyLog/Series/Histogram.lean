import LatencyLog.Binary64.Arithmetic
import LatencyLog.Binary64.Order

/-!
# Latency histograms

A histogram counts whole nanoseconds by class. Below 2048 a class is one value; above, each power
of two is divided into 1024 classes of one width, so the ends of a class differ by less than one
part in a thousand from every value in it. Values are 64-bit words, and the greatest word stands
for itself and for everything beyond.

A percentile is answered by the top of the first class up to which enough values have been counted.
The extremes are kept beside the counts, since the top of the last class and the greatest word are
two different answers.
-/

namespace LatencyLog

open Binary64 (maxWord)

/-! ## Classes -/

namespace LatencyClass

/-- The width of the class of a value. -/
def width (v : Nat) : Nat := 1 <<< (v.log2 - 10)

/-- The least value of the class of `v`. -/
def bottom (v : Nat) : Nat := v - v % width v

/-- The greatest value of the class of `v`; the last class stops short of the greatest word. -/
def top (v : Nat) : Nat := min (bottom v + width v) maxWord - 1

/-- The lower end of a class as a least value: the greatest word is its own. -/
def lowEnd (v : Nat) : Nat := if v = maxWord then maxWord else bottom v

/-- The upper end of a class as a greatest value: the greatest word is its own. -/
def highEnd (v : Nat) : Nat := if v = maxWord then maxWord else top v

theorem width_pos (v : Nat) : 0 < width v := by
  rw [width, Nat.one_shiftLeft]
  exact Nat.two_pow_pos _

theorem bottom_le (v : Nat) : bottom v ≤ v := Nat.sub_le _ _

theorem lt_bottom_add_width (v : Nat) : v < bottom v + width v := by
  have := Nat.mod_lt v (width_pos v)
  have := Nat.mod_le v (width v)
  unfold bottom
  omega

end LatencyClass

/-! ## Counting -/

/-- The least and the greatest value and four percentiles, in nanoseconds. -/
structure Distribution where
  min : Nat
  p50 : Nat
  p90 : Nat
  p99 : Nat
  p999 : Nat
  max : Nat
deriving DecidableEq

/-- Counts by class, each class named by its bottom, in ascending order. -/
structure Histogram where
  counts : List (Nat × Nat)
  count : Nat
  /-- The least and the greatest value recorded. -/
  extremes : Option (Nat × Nat)
deriving DecidableEq

namespace Histogram

def empty : Histogram := ⟨[], 0, none⟩

/-- One more value in a class. -/
def bump (cls : Nat) : List (Nat × Nat) → List (Nat × Nat)
  | [] => [(cls, 1)]
  | (c, n) :: rest =>
    if cls < c then (cls, 1) :: (c, n) :: rest
    else if cls = c then (c, n + 1) :: rest
    else (c, n) :: bump cls rest

/-- The extremes, one value further. -/
def widen (v : Nat) : Option (Nat × Nat) → Nat × Nat
  | none => (v, v)
  | some (least, greatest) => (min least v, max greatest v)

def recordWord (h : Histogram) (v : Nat) : Histogram where
  counts := bump (LatencyClass.bottom v) h.counts
  count := h.count + 1
  extremes := some (widen v h.extremes)

/-- The whole nanoseconds that are recorded for a latency: none for a negative value or one that is
not finite. -/
def word? (nanos : Binary64) : Option Nat :=
  if nanos.isFinite && Binary64.zero.le nanos then some nanos.roundWord else none

/-- Records a latency in nanoseconds, rounded to whole ones. -/
def record (h : Histogram) (nanos : Binary64) : Histogram :=
  match word? nanos with
  | some v => h.recordWord v
  | none => h

def extend (h : Histogram) (nanos : List Binary64) : Histogram := nanos.foldl record h

/-! ## Answers -/

/-- The first class up to which `rank` values have been counted. -/
def classAt? : (rank : Nat) → List (Nat × Nat) → Option Nat
  | _, [] => none
  | rank, (c, n) :: rest => if rank ≤ n then some c else classAt? (rank - n) rest

/-- The value at a quantile; a quantile above 1 is 1, and quantile 0 is answered by the bottom of
its class. Without values the answer is 0. -/
def valueAtQuantile (h : Histogram) (quantile : Binary64) : Nat :=
  let q := if Binary64.one.lt quantile then .one else quantile
  let rank := max 1 (q * .ofNat h.count).ceilWord
  match classAt? rank h.counts with
  | some c => if q.eq .zero then c else LatencyClass.top c
  | none => 0

/-- The value at a percentile from 0 to 100. -/
def valueAtPercentile (h : Histogram) (percentile : Binary64) : Nat :=
  h.valueAtQuantile (percentile / .ofNat 100)

def least (h : Histogram) : Nat :=
  match h.extremes with
  | some (v, _) => LatencyClass.lowEnd v
  | none => 0

def greatest (h : Histogram) : Nat :=
  match h.extremes with
  | some (_, v) => LatencyClass.highEnd v
  | none => 0

def distribution (h : Histogram) : Distribution where
  min := h.least
  p50 := h.valueAtPercentile (.ofNat 50)
  p90 := h.valueAtPercentile (.ofNat 90)
  p99 := h.valueAtPercentile (.ofNat 99)
  p999 := h.valueAtPercentile (.ofDecimal false 999 (-1))
  max := h.greatest

end Histogram

end LatencyLog
