import LatencyLog.Proofs.Series.Counting
import LatencyLog.Proofs.Series.Ranks
import LatencyLog.Series.Basic
import LatencyLog.Series.Summary

/-!
# The shape of a summary

A summary is made of lists that belong together position by position: the points that were kept, the same
points in the unit of the summary, their smoothed values. `Summary.Shows` says what each of its parts is,
given the points that were kept, and `summarize_shape` that there always are such points, unless too few
of a series are usable.

Three things in `summarize` could come out wrong, and do not. There could be no bounds to trim by, as a
quantile is read at positions that are computed; but those of a series that is not empty are in it
(`trim_eq`). Trimming could keep nothing; but then it keeps everything (`trim_ne_nil`), so there is always
a mean, and the way out for a series without one is never taken. And a window could be longer than the
series; but it has one value at least and, if it has more, a hundredth of what there is
(`rollingWindow_le`).
-/

namespace LatencyLog

/-! ## What a summary shows -/

/-- A summary of a kind shows some points. -/
structure Summary.Shows (s : Summary) (kind : SeriesKind) (kept : List Point) : Prop where
  kind_eq : s.kind = kind
  count_eq : s.count = kept.length
  mean_eq : Series.mean? (kept.map Point.value) = some s.meanNanos
  /-- One unit for all points, chosen by their mean. -/
  unit_eq : s.unit = kind.unitFor s.meanNanos
  raw_eq : s.raw = kept.map fun p => ⟨p.time, p.value / s.unit.divisor⟩
  window_eq : s.window = max 1 (s.count / 100)
  window_le : s.window ≤ s.count
  /-- The smoothed series has the times of the raw one, so it is as long. -/
  times_eq : s.smoothed.map SmoothedPoint.time = s.raw.map Point.time
  /-- There is nothing to show before the first full window. -/
  undefined_iff : ∀ i p, s.smoothed[i]? = some p → (p.value = none ↔ i < s.window - 1)
  /-- From there on it is the mean of the window that ends at the position. -/
  smoothed_eq : ∀ i p, s.smoothed[i]? = some p → s.window - 1 ≤ i →
    p.value = some (Binary64.sum (((s.raw.map Point.value).drop (i + 1 - s.window)).take s.window) /
      .ofNat s.window)
  /-- The distribution is that of all points, rounded to whole nanoseconds. -/
  recorded : ∃ h : Histogram, h.Holds (kept.map fun p => p.value.roundWord) ∧
    s.distribution = h.distribution

namespace Series

/-! ## Trimming -/

theorem strictlyBetween_sublist (low high : Binary64) (points : List Point) :
    (strictlyBetween low high points).Sublist points := List.filter_sublist

theorem ne_nil_map_value {points : List Point} (h : points ≠ []) :
    points.map Point.value ≠ [] := fun hnil => h (List.map_eq_nil_iff.mp hnil)

theorem sort_values_ne_nil {points : List Point} (h : points ≠ []) :
    Binary64.sort (points.map Point.value) ≠ [] := by
  intro hnil
  have hperm := List.mergeSort_perm (points.map Point.value) Binary64.totalLE
  rw [Binary64.sort] at hnil
  rw [hnil] at hperm
  exact ne_nil_map_value h hperm.nil_eq.symm

/-- What has a point has two bounds, and what is left is what lies between, unless nothing does. -/
theorem trim_eq {points : List Point} (h : points ≠ []) :
    ∃ low high, quantile? (Binary64.sort (points.map Point.value)) trimLow = some low ∧
      quantile? (Binary64.sort (points.map Point.value)) trimHigh = some high ∧
      trim points = if (strictlyBetween low high points).isEmpty then points
        else strictlyBetween low high points := by
  obtain ⟨low, high, hlow, hhigh⟩ := exists_trim_bounds (sort_values_ne_nil h)
  exact ⟨low, high, hlow, hhigh, by simp only [trim, hlow, hhigh]⟩

theorem trim_sublist {points : List Point} (h : points ≠ []) : (trim points).Sublist points := by
  obtain ⟨low, high, _, _, htrim⟩ := trim_eq h
  rw [htrim]
  split
  · exact List.Sublist.refl points
  · exact strictlyBetween_sublist low high points

/-- **Trimming leaves something of anything.** -/
theorem trim_ne_nil {points : List Point} (h : points ≠ []) : trim points ≠ [] := by
  obtain ⟨low, high, _, _, htrim⟩ := trim_eq h
  rw [htrim]
  split
  · exact h
  · rename_i hkept
    intro hnil
    exact hkept (List.isEmpty_iff.mpr hnil)

/-! ## Two outcomes -/

theorem isUsable_of_mem_usable {points : List Point} {p : Point} (h : p ∈ usable points) :
    p.value.isUsable = true := (List.mem_filter.mp h).2

theorem summarize_of_few {points : List Point} (h : (usable points).length < minSamples)
    (kind : SeriesKind) : summarize kind points = .insufficient (usable points).length := by
  rw [summarize, if_pos h]

theorem mean?_of_ne_nil {values : List Binary64} (h : values ≠ []) :
    mean? values = some (Binary64.sum values / .ofNat values.length) := by
  rw [mean?, if_neg]
  intro hempty
  exact h (List.isEmpty_iff.mp hempty)

theorem usable_ne_nil_of_enough {points : List Point} (h : minSamples ≤ (usable points).length) :
    usable points ≠ [] := by
  intro hnil
  rw [hnil] at h
  exact absurd h (by decide)

/-- With enough usable points there is a mean, and so a summary. -/
theorem summarize_of_enough {points : List Point} (h : minSamples ≤ (usable points).length)
    (kind : SeriesKind) : ∃ mean, mean? ((trim (usable points)).map Point.value) = some mean ∧
      summarize kind points = .summarized (describe kind (trim (usable points)) mean) := by
  have hkept := trim_ne_nil (usable_ne_nil_of_enough h)
  have hmean := mean?_of_ne_nil (ne_nil_map_value hkept)
  refine ⟨_, hmean, ?_⟩
  rw [summarize, if_neg (Nat.not_lt.mpr h)]
  simp only [hmean]

/-- What is summarized is described: what trimming leaves of the usable points. -/
theorem exists_describe {kind : SeriesKind} {points : List Point} {s : Summary}
    (h : summarize kind points = .summarized s) :
    usable points ≠ [] ∧ ∃ mean, mean? ((trim (usable points)).map Point.value) = some mean ∧
      s = describe kind (trim (usable points)) mean := by
  rcases Nat.lt_or_ge (usable points).length minSamples with hfew | henough
  · rw [summarize_of_few hfew] at h
    cases h
  · obtain ⟨mean, hmean, hsummary⟩ := summarize_of_enough henough kind
    rw [hsummary] at h
    exact ⟨usable_ne_nil_of_enough henough, mean, hmean, (Outcome.summarized.inj h).symm⟩

/-! ## What is described is shown -/

section Describe

variable {kind : SeriesKind} {kept : List Point} {mean : Binary64}

theorem describe_raw :
    (describe kind kept mean).raw =
      kept.map fun p => ⟨p.time, p.value / (kind.unitFor mean).divisor⟩ := by
  show kept.zipWith _ ((kept.map Point.value).map (kind.unitFor mean).scale) = _
  rw [List.map_map, List.zipWith_map_right, List.zipWith_self]
  rfl

/-- The values of the raw series are those that are smoothed. -/
theorem describe_raw_values :
    (describe kind kept mean).raw.map Point.value =
      (kept.map Point.value).map (kind.unitFor mean).scale := by
  rw [describe_raw, List.map_map, List.map_map]
  rfl

theorem describe_window :
    (describe kind kept mean).window = rollingWindow (describe kind kept mean).count := by
  show rollingWindow ((kept.map Point.value).map (kind.unitFor mean).scale).length =
    rollingWindow (kept.map Point.value).length
  rw [List.length_map]

theorem describe_smoothed :
    (describe kind kept mean).smoothed = kept.zipWith (fun p value => ⟨p.time, value⟩)
      (rollingMean ((describe kind kept mean).raw.map Point.value)
        (describe kind kept mean).window) := by
  rw [describe_raw_values]
  rfl

theorem describe_times :
    (describe kind kept mean).smoothed.map SmoothedPoint.time = kept.map Point.time := by
  have hlength : ((describe kind kept mean).raw.map Point.value).length = kept.length := by
    rw [describe_raw, List.length_map, List.length_map]
  rw [describe_smoothed]
  generalize hmeans : rollingMean ((describe kind kept mean).raw.map Point.value)
    (describe kind kept mean).window = means
  have hle : kept.length ≤ means.length := by
    apply Nat.le_of_eq
    rw [← hmeans, length_rollingMean, hlength]
  have hzip := congrArg (List.map Point.time) (List.map_fst_zip hle)
  rw [List.zip_eq_zipWith, List.map_zipWith, List.map_zipWith] at hzip
  rw [List.map_zipWith]
  exact hzip

/-- What is smoothed at a position is the rolling mean there. -/
theorem describe_smoothed_value {i : Nat} {p : SmoothedPoint}
    (h : (describe kind kept mean).smoothed[i]? = some p) :
    p.value =
      if i + 1 < (describe kind kept mean).window then none
      else some (Binary64.sum ((((describe kind kept mean).raw.map Point.value).drop
          (i + 1 - (describe kind kept mean).window)).take (describe kind kept mean).window) /
        .ofNat (describe kind kept mean).window) := by
  have hwindow : max (describe kind kept mean).window 1 = (describe kind kept mean).window := by
    rw [describe_window]
    exact Nat.max_eq_left (rollingWindow_pos _)
  rw [describe_smoothed] at h
  obtain ⟨point, value, _, hvalue, rfl⟩ := List.getElem?_zipWith_eq_some.mp h
  obtain ⟨hi, _⟩ := List.getElem?_eq_some_iff.mp hvalue
  rw [length_rollingMean] at hi
  rw [getElem?_rollingMean hi, hwindow] at hvalue
  exact (Option.some.inj hvalue).symm

theorem describe_shows (hkept : kept ≠ [])
    (husable : ∀ p ∈ kept, p.value.isUsable = true) (hmean : mean? (kept.map Point.value) = some mean) :
    (describe kind kept mean).Shows kind kept where
  kind_eq := rfl
  count_eq := List.length_map _
  mean_eq := hmean
  unit_eq := rfl
  raw_eq := describe_raw
  window_eq := describe_window
  window_le := by
    rw [describe_window]
    refine rollingWindow_le ?_
    show 0 < (kept.map Point.value).length
    rw [List.length_map]
    exact List.length_pos_iff.mpr hkept
  times_eq := by
    rw [describe_times, describe_raw, List.map_map]
    rfl
  undefined_iff i p hp := by
    rw [describe_smoothed_value hp]
    split
    · simp
      omega
    · simp
      omega
  smoothed_eq i p hp hi := by
    rw [describe_smoothed_value hp, if_neg]
    omega
  recorded := by
    have hvalues : ∀ x ∈ kept.map Point.value, x.isUsable = true := by
      intro x hx
      obtain ⟨p, hp, rfl⟩ := List.mem_map.mp hx
      exact husable p hp
    have hholds := Histogram.holds_extend_of_isUsable hvalues
    rw [List.map_map] at hholds
    exact ⟨_, hholds, rfl⟩

end Describe

/-! ## The shape -/

theorem summarize_eq_insufficient_iff {kind : SeriesKind} {points : List Point} {n : Nat} :
    summarize kind points = .insufficient n ↔
      (usable points).length < minSamples ∧ n = (usable points).length := by
  constructor
  · intro h
    rcases Nat.lt_or_ge (usable points).length minSamples with hfew | henough
    · rw [summarize_of_few hfew] at h
      cases h
      exact ⟨hfew, rfl⟩
    · obtain ⟨mean, _, hsummary⟩ := summarize_of_enough henough kind
      rw [hsummary] at h
      cases h
  · rintro ⟨hfew, rfl⟩
    exact summarize_of_few hfew kind

/-- **A series is summarized if two of its points are usable.** The usable points have two bounds to be
trimmed by. What is shown are some of them, in their order: at least one, and not more than there are.
With fewer the answer is how many there are. -/
theorem summarize_shape (kind : SeriesKind) (points : List Point) :
    (∀ n, summarize kind points = .insufficient n ↔
      (usable points).length < 2 ∧ n = (usable points).length) ∧
    (2 ≤ (usable points).length →
      (∃ low high, quantile? (Binary64.sort ((usable points).map Point.value)) trimLow = some low ∧
        quantile? (Binary64.sort ((usable points).map Point.value)) trimHigh = some high) ∧
      ∃ summary kept, summarize kind points = .summarized summary ∧
        kept.Sublist (usable points) ∧ 1 ≤ summary.count ∧ summary.count ≤ (usable points).length ∧
        summary.Shows kind kept) := by
  refine ⟨fun n => summarize_eq_insufficient_iff, fun henough => ?_⟩
  have husable := usable_ne_nil_of_enough henough
  obtain ⟨low, high, hlow, hhigh, _⟩ := trim_eq husable
  obtain ⟨mean, hmean, hsummary⟩ := summarize_of_enough henough kind
  have hsublist := trim_sublist husable
  have hkept := trim_ne_nil husable
  have hshows : (describe kind (trim (usable points)) mean).Shows kind (trim (usable points)) := by
    refine describe_shows hkept (fun p hp => ?_) hmean
    exact isUsable_of_mem_usable (hsublist.subset hp)
  refine ⟨⟨low, high, hlow, hhigh⟩, _, _, hsummary, hsublist, ?_, ?_, hshows⟩
  · rw [hshows.count_eq]
    exact List.length_pos_iff.mpr hkept
  · rw [hshows.count_eq]
    exact hsublist.length_le

def pastNoon : TimeOfDay := ⟨12, 10, 20, 30, by decide, by decide, by decide, by decide⟩

/-- Two usable points, and two that are not. -/
def usableAmongOthers : List Point :=
  [⟨pastNoon, .ofNat 5⟩, ⟨pastNoon, .infinity false⟩, ⟨pastNoon, .zero⟩, ⟨pastNoon, .ofNat 7⟩]

theorem summarize_shape_usableAmongOthers :
    2 ≤ (usable usableAmongOthers).length ∧
      (∃ low high,
        quantile? (Binary64.sort ((usable usableAmongOthers).map Point.value)) trimLow = some low ∧
        quantile? (Binary64.sort ((usable usableAmongOthers).map Point.value)) trimHigh =
          some high) ∧
      ∃ summary kept, summarize .hop usableAmongOthers = .summarized summary ∧
        kept.Sublist (usable usableAmongOthers) ∧ 1 ≤ summary.count ∧
        summary.count ≤ (usable usableAmongOthers).length ∧ summary.Shows .hop kept := by
  have henough : 2 ≤ (usable usableAmongOthers).length := by decide +kernel
  exact ⟨henough, (summarize_shape .hop usableAmongOthers).2 henough⟩

end Series

end LatencyLog
