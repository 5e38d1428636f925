import LatencyLog.Proofs.Series.Percentiles
import LatencyLog.Proofs.Series.Shape

/-!
# Distributions in order

A distribution shows a least value, four percentiles and a greatest value, and by their names they are in
order. By how they are made they need not be: the least value is the bottom of a class and the percentiles
are tops, the extremes are kept apart from the counts, and the greatest word is its own end as an extreme
and not as a percentile. That last one shows. *A distribution is in order exactly where some value is less
than the greatest word* (`ordered_iff`); with the greatest word alone, the least value is above the
percentiles.

What is in order in any case are the ranks, as rounding is monotone (`rankAt_mono`), and so the values at
them. None of them is beyond the last value, and here it does not matter how many there are: the greatest
percentile is far enough from 100 (`Inner.rankAt_le`).
-/

namespace LatencyLog

open Binary64

/-- The percentiles of a distribution are in order, and between its extremes. -/
structure Distribution.Ordered (d : Distribution) : Prop where
  min_le_p50 : d.min ≤ d.p50
  p50_le_p90 : d.p50 ≤ d.p90
  p90_le_p99 : d.p90 ≤ d.p99
  p99_le_p999 : d.p99 ≤ d.p999
  p999_le_max : d.p999 ≤ d.max

namespace Histogram

/-! ## Ranks in order -/

/-- A quantile is above 0, and at most 0.9991. -/
structure Inner (q : Binary64) : Prop where
  pos : zero.lt q = true
  height_le : 10000 * q.height ≤ 9991 * unity

theorem Inner.exists_finite {q : Binary64} (h : Inner q) :
    ∃ m : Magnitude, q = finite false m ∧ 0 < m.units ∧ 10000 * m.units ≤ 9991 * unity := by
  have hpos := h.pos
  have hle := h.height_le
  rcases cases_of_zero_le (le_of_lt hpos) with rfl | ⟨m, rfl⟩ | rfl
  · have hceiling : 9991 * unity < 10000 * ceiling := by decide +kernel
    rw [height_infinity] at hle
    exact absurd hle (Nat.not_le.mpr hceiling)
  · rw [height_finite] at hle
    exact ⟨m, rfl, zero_lt_finite.mp hpos, hle⟩
  · exact absurd hpos (by decide)

/-- **No rank is beyond the values**, however many there are. -/
theorem Inner.rankAt_le {q : Binary64} (h : Inner q) {n : Nat} (hn : 1 ≤ n) : rankAt q n ≤ n := by
  obtain ⟨m, rfl, _, hle⟩ := h.exists_finite
  have hfloor : (ofNat n * finite false m).floorWord ≤ n - 1 :=
    floorWord_ofNat_mul_le_of_lt 9991 (by decide) (by omega) hle
  have hceil := ceilWord_le_succ (ofNat n * finite false m)
  rw [rankAt, finite_mul_ofNat]
  omega

/-- **Ranks are in the order of quantiles.** -/
theorem rankAt_mono {q q' : Binary64} (hq : Inner q) (hq' : Inner q') (h : q.le q' = true) {n : Nat}
    (hn : 1 ≤ n) : rankAt q n ≤ rankAt q' n := by
  obtain ⟨a, rfl, hapos, _⟩ := hq.exists_finite
  obtain ⟨b, rfl, hbpos, _⟩ := hq'.exists_finite
  have hab := finite_le_finite.mp h
  rcases ofNat_cases hn with hinfinite | ⟨w, hw, _⟩
  · have hproduct : ∀ m : Magnitude, 0 < m.units → finite false m * infinity false = infinity false :=
      fun m hm => if_neg (Nat.ne_of_gt hm)
    rw [rankAt, rankAt, hinfinite, hproduct a hapos, hproduct b hbpos]
  · have hround : roundToGrid (a.units * w.units) unity ≤ roundToGrid (b.units * w.units) unity :=
      roundToGrid_mono unity_pos (Nat.mul_le_mul_right w.units hab)
    have hceil : Quotient.ceil (min (roundToGrid (a.units * w.units) unity) ceiling) unity ≤
        Quotient.ceil (min (roundToGrid (b.units * w.units) unity) ceiling) unity :=
      Quotient.ceil_mono unity_pos (by omega)
    rw [rankAt_finite hw, rankAt_finite hw]
    omega

/-! ## Answers in order -/

section Answers

variable {h : Histogram} {words : List Nat} (hold : h.Holds words) (hasc : Ascending h.counts)
  (hne : words ≠ []) {q : Binary64} (hq : Inner q)
include hold hasc hne hq

/-- A percentile is answered by the top of the class of a value. -/
theorem exists_valueAtQuantile :
    ∃ x, kthSmallest? words (rankAt q words.length) = some x ∧
      h.valueAtQuantile q = LatencyClass.top x := by
  obtain ⟨x, hx⟩ : ∃ x, kthSmallest? words (rankAt q words.length) = some x :=
    exists_kthSmallest? (Nat.le_max_left 1 _) (hq.rankAt_le (List.length_pos_iff.mpr hne))
  obtain ⟨m, rfl, hpos, hle⟩ := hq.exists_finite
  have hanswer := valueAtQuantile_eq hold hasc (one_lt_finite (by omega)) (finite_eq_zero hpos)
  rw [hx] at hanswer
  exact ⟨x, hx, hanswer⟩

theorem valueAtQuantile_mono {q' : Binary64} (hq' : Inner q') (hle : q.le q' = true) :
    h.valueAtQuantile q ≤ h.valueAtQuantile q' := by
  obtain ⟨x, hx, hanswer⟩ := exists_valueAtQuantile hold hasc hne hq
  obtain ⟨y, hy, hanswer'⟩ := exists_valueAtQuantile hold hasc hne hq'
  have hranks := rankAt_mono hq hq' hle (List.length_pos_iff.mpr hne)
  rw [hanswer, hanswer']
  exact LatencyClass.top_mono (kthSmallest?_le hranks hx hy)

theorem valueAtQuantile_le_greatest : h.valueAtQuantile q ≤ h.greatest := by
  obtain ⟨x, hx, hanswer⟩ := exists_valueAtQuantile hold hasc hne hq
  obtain ⟨_, greatest, _, hmax, _, hgreatest⟩ := exists_extremes hold hne
  rw [hanswer, hgreatest]
  exact LatencyClass.top_le_highEnd ((List.max?_eq_some_iff.mp hmax).2 x (mem_of_kthSmallest? hx))

/-- **The least value is not above a percentile, unless it is the greatest word.** -/
theorem least_le_valueAtQuantile_iff (hwords : ∀ w ∈ words, w ≤ maxWord) :
    h.least ≤ h.valueAtQuantile q ↔ ∃ w ∈ words, w < maxWord := by
  obtain ⟨x, hx, hanswer⟩ := exists_valueAtQuantile hold hasc hne hq
  obtain ⟨least, _, hmin, _, hleast, _⟩ := exists_extremes hold hne
  obtain ⟨hmem, hbelow⟩ := List.min?_eq_some_iff.mp hmin
  have hxmem := mem_of_kthSmallest? hx
  rw [hanswer, hleast]
  constructor
  · intro hle
    refine ⟨least, hmem, Nat.lt_of_le_of_ne (hwords least hmem) fun hmax => ?_⟩
    -- The greatest word is its own lower end, and the top of its class is below it.
    rw [LatencyClass.lowEnd, if_pos hmax] at hle
    exact absurd hle (Nat.not_le.mpr (LatencyClass.top_lt x))
  · rintro ⟨w, hw, hlt⟩
    have hleast_lt := Nat.lt_of_le_of_lt (hbelow w hw) hlt
    exact LatencyClass.lowEnd_le_top hleast_lt (hbelow x hxmem) (hwords x hxmem)

end Answers

/-! ## The distribution -/

theorem inner_p50 : Inner (.ofNat 50 / .ofNat 100) := ⟨by decide +kernel, by decide +kernel⟩

theorem inner_p90 : Inner (.ofNat 90 / .ofNat 100) := ⟨by decide +kernel, by decide +kernel⟩

theorem inner_p99 : Inner (.ofNat 99 / .ofNat 100) := ⟨by decide +kernel, by decide +kernel⟩

theorem inner_p999 : Inner (.ofDecimal false 999 (-1) / .ofNat 100) :=
  ⟨by decide +kernel, by decide +kernel⟩

/-- **A distribution is in order where some value is less than the greatest word.** -/
theorem ordered_iff {h : Histogram} {words : List Nat} (hold : h.Holds words)
    (hasc : Ascending h.counts) (hne : words ≠ []) (hwords : ∀ w ∈ words, w ≤ maxWord) :
    h.distribution.Ordered ↔ ∃ w ∈ words, w < maxWord := by
  rw [← least_le_valueAtQuantile_iff hold hasc hne inner_p50 hwords]
  refine ⟨fun hordered => hordered.min_le_p50, fun hleast => ?_⟩
  exact {
    min_le_p50 := hleast
    p50_le_p90 := valueAtQuantile_mono hold hasc hne inner_p50 inner_p90 (by decide +kernel)
    p90_le_p99 := valueAtQuantile_mono hold hasc hne inner_p90 inner_p99 (by decide +kernel)
    p99_le_p999 := valueAtQuantile_mono hold hasc hne inner_p99 inner_p999 (by decide +kernel)
    p999_le_max := valueAtQuantile_le_greatest hold hasc hne inner_p999 }

end Histogram

namespace Series

/-- **The distribution of a summary is that of all values left, and in order** where some of them is less
than the greatest word. -/
theorem summarize_distribution {kind : SeriesKind} {points : List Point} {s : Summary}
    (h : summarize kind points = .summarized s) :
    s.count = (trim (usable points)).length ∧
      (Histogram.empty.extend ((trim (usable points)).map Point.value)).count = s.count ∧
      s.distribution =
        (Histogram.empty.extend ((trim (usable points)).map Point.value)).distribution ∧
      (s.distribution.Ordered ↔ ∃ p ∈ trim (usable points), p.value.roundWord < maxWord) := by
  obtain ⟨hne, mean, _, rfl⟩ := exists_describe h
  have hkept := trim_ne_nil hne
  have hsublist := trim_sublist hne
  have husable : ∀ x ∈ (trim (usable points)).map Point.value, x.isUsable = true :=
    List.forall_mem_map.mpr fun p hp => isUsable_of_mem_usable (hsublist.subset hp)
  have hold := Histogram.holds_extend_of_isUsable husable
  have hcount : (describe kind (trim (usable points)) mean).count = (trim (usable points)).length :=
    List.length_map _
  refine ⟨hcount, ?_, rfl, ?_⟩
  · rw [hold.count, hcount, List.length_map, List.length_map]
  · refine (Histogram.ordered_iff hold (Histogram.ascending_empty.extend _) ?_ ?_).trans ?_
    · rw [ne_eq, List.map_eq_nil_iff, List.map_eq_nil_iff]
      exact hkept
    · exact List.forall_mem_map.mpr fun x _ => toWord_le _ x
    · simp only [List.mem_map, exists_exists_and_eq_and]

/-- Both of the usable points are less than the greatest word. -/
theorem summarize_distribution_usableAmongOthers :
    ∃ s, summarize .hop usableAmongOthers = .summarized s ∧
      s.count = (trim (usable usableAmongOthers)).length ∧
      (Histogram.empty.extend ((trim (usable usableAmongOthers)).map Point.value)).count = s.count ∧
      s.distribution.Ordered := by
  have henough : minSamples ≤ (usable usableAmongOthers).length := by decide +kernel
  obtain ⟨mean, _, hsummary⟩ := summarize_of_enough henough .hop
  obtain ⟨hcount, hrecorded, _, hordered⟩ := summarize_distribution hsummary
  have hkept := trim_ne_nil (usable_ne_nil_of_enough henough)
  have hsublist := trim_sublist (usable_ne_nil_of_enough henough)
  have hwords : ∀ p ∈ usable usableAmongOthers, p.value.roundWord < maxWord := by decide +kernel
  obtain ⟨p, hp⟩ := List.exists_mem_of_ne_nil _ hkept
  exact ⟨_, hsummary, hcount, hrecorded, hordered.mpr ⟨p, hp, hwords p (hsublist.subset hp)⟩⟩

end Series

end LatencyLog
