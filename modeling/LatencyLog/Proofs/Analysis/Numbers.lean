import LatencyLog.Analysis
import LatencyLog.Proofs.FirstOccurrence
import LatencyLog.Proofs.Report.Nulls
import LatencyLog.Proofs.Series.Numbers

/-!
# The numbers of a report

A renderer takes null for a smoothed value that is not there yet, and relies on every other number being
one. It may, as far as raw values go: they are finite. The mean is finite unless the sum of the series
overflows, and then it is null; and only then can a smoothed value be null that has a full window. So *a
series with a finite mean has its nulls where its first windows are not full, and nowhere else*
(`report_numbers`). There are none in a report outside of its summaries.

A series that overflows is made of usable values all the same: two of the order of 10^308 are enough. And
a value so small that its unit takes it to zero can be shown among greater ones
(`report_numbers_of_extremes`).
-/

namespace LatencyLog

open Json (NullAt)
open Json.Step (field element)

/-! ## Nulls of a summary -/

namespace Summary

variable {s : Summary} {kept : List Point}

/-- The first windows are not full, and a full one can overflow. -/
theorem smoothed_null_iff (hshows : s.Shows s.kind kept) (hnumeric : s.Numeric kept) (i : Nat) :
    (∃ p, s.smoothed[i]? = some p ∧ ∀ x, p.value = some x → x.isFinite = false) ↔
      i < s.count ∧ (i < s.window - 1 ∨ (Binary64.sum (s.windowAt i)).isFinite = false) := by
  constructor
  · rintro ⟨p, hp, hnull⟩
    refine ⟨hshows.length_smoothed ▸ (List.getElem?_eq_some_iff.mp hp).1, ?_⟩
    rcases Nat.lt_or_ge i (s.window - 1) with hi | hi
    · exact Or.inl hi
    · have hvalue := hshows.smoothed_eq i p hp hi
      rw [← hnumeric.smoothed_finite i p _ hp hvalue]
      exact Or.inr (hnull _ hvalue)
  · rintro ⟨hi, hcase⟩
    have hp := List.getElem?_eq_getElem (hshows.length_smoothed ▸ hi)
    refine ⟨_, hp, fun x hx => ?_⟩
    rcases hcase with hfirst | hsum
    · rw [(hshows.undefined_iff i _ hp).mpr hfirst] at hx
      cases hx
    · rw [hnumeric.smoothed_finite i _ x hp hx]
      exact hsum

/-- **A summary has nulls for a mean that overflows and for smoothed values, and no others.** -/
theorem nullAt_iff (hshows : s.Shows s.kind kept) (hnumeric : s.Numeric kept)
    {path : List Json.Step} :
    NullAt (Outcome.summarized s).toJson path ↔
      (s.meanNanos.isFinite = false ∧ path = [field "mean_ns"]) ∨
      ∃ i, (i < s.count ∧ (i < s.window - 1 ∨ (Binary64.sum (s.windowAt i)).isFinite = false)) ∧
        path = [field "smoothed_series", element i, field "value"] := by
  rw [Outcome.nullAt_summarized]
  refine or_congr Iff.rfl ?_
  constructor
  · rintro (⟨i, p, hp, hnull, _⟩ | ⟨i, p, hp, hnull, rfl⟩)
    · -- There is no such raw value.
      rw [(hnumeric.raw_finite p (List.mem_of_getElem? hp)).1] at hnull
      cases hnull
    · exact ⟨i, (smoothed_null_iff hshows hnumeric i).mp ⟨p, hp, hnull⟩, rfl⟩
  · rintro ⟨i, hi, rfl⟩
    obtain ⟨p, hp, hnull⟩ := (smoothed_null_iff hshows hnumeric i).mpr hi
    exact Or.inr ⟨i, p, hp, hnull, rfl⟩

/-- With a finite mean only the first windows are left. -/
theorem nullAt_iff_of_isFinite (hshows : s.Shows s.kind kept) (hnumeric : s.Numeric kept)
    (hmean : s.meanNanos.isFinite = true) {path : List Json.Step} :
    NullAt (Outcome.summarized s).toJson path ↔
      ∃ i, i < s.window - 1 ∧ path = [field "smoothed_series", element i, field "value"] := by
  rw [nullAt_iff hshows hnumeric, hmean]
  constructor
  · rintro (⟨hfalse, _⟩ | ⟨i, ⟨_, hi | hsum⟩, rfl⟩)
    · cases hfalse
    · exact ⟨i, hi, rfl⟩
    · rw [hnumeric.window_finite hmean i] at hsum
      cases hsum
  · rintro ⟨i, hi, rfl⟩
    have hwindow := hshows.window_le
    exact Or.inr ⟨i, ⟨by omega, Or.inl hi⟩, rfl⟩

end Summary

namespace Analysis

/-! ## Series of a report -/

/-- What a report has of a series is a summary of points. -/
theorem exists_summarize {config : Config} {set : RecordSet} {front : List Json.Step}
    {outcome : Outcome} (h : (analyze config set).HasSeries front outcome) {s : Summary}
    (hs : outcome = .summarized s) : ∃ kind points, Series.summarize kind points = .summarized s := by
  cases h with
  | tag ht =>
    obtain ⟨tag, _, rfl⟩ := List.mem_map.mp (List.mem_of_getElem? ht)
    exact ⟨_, _, hs⟩
  | hop hh =>
    obtain ⟨⟨hop, transits⟩, _, rfl⟩ := by
      have hmem := List.mem_of_getElem? hh
      simp only [analyze, hopReports] at hmem
      split at hmem
      · cases hmem
      · exact List.mem_map.mp hmem
    simp only [hopOutcome] at hs
    split at hs
    · exact ⟨_, _, hs⟩
    · cases hs

theorem exists_shows_of_hasSeries {config : Config} {set : RecordSet} {front : List Json.Step}
    {s : Summary} (h : (analyze config set).HasSeries front (.summarized s)) :
    ∃ kept, (∀ p ∈ kept, p.value.isUsable = true) ∧ s.Shows s.kind kept ∧ s.Numeric kept := by
  obtain ⟨kind, points, hsummarize⟩ := exists_summarize h rfl
  obtain ⟨kept, hne, hsublist, hshows⟩ := Series.exists_shows hsummarize
  have husable : ∀ p ∈ kept, p.value.isUsable = true :=
    fun p hp => Series.isUsable_of_mem_usable (hsublist.subset hp)
  obtain rfl := hshows.kind_eq
  exact ⟨kept, husable, hshows, hshows.numeric husable hne⟩

/-- The nulls of a report are in its summaries: a frequency is finite. -/
theorem nullAt_analyze_iff {config : Config} {set : RecordSet} {path : List Json.Step} :
    NullAt (analyze config set).toJson path ↔
      ∃ front s rest, (analyze config set).HasSeries front (.summarized s) ∧ path = front ++ rest ∧
        NullAt (Outcome.summarized s).toJson rest := by
  have hghz : config.frequency.ghz.isFinite = true :=
    (Bool.and_eq_true_iff.mp config.frequency.usable).2
  rw [Report.nullAt_iff hghz]
  constructor
  · rintro ⟨front, outcome, rest, hseries, rfl, hnull⟩
    cases outcome with
    | summarized s => exact ⟨front, s, rest, hseries, rfl, hnull⟩
    | insufficient usable => exact absurd hnull (Outcome.not_nullAt_insufficient usable)
  · rintro ⟨front, s, rest, hseries, rfl, hnull⟩
    exact ⟨front, _, rest, hseries, rfl, hnull⟩

/-! ## Series of two durations -/

theorem isUsable_one : Binary64.one.isUsable = true := by decide +kernel

/-- A cycle is a nanosecond. -/
def cyclePerNano : Frequency := ⟨.one, isUsable_one⟩

def firstTime : TimeOfDay := (TimeOfDay.read? "10:00:00".toList).get (by decide +kernel)

def secondTime : TimeOfDay := (TimeOfDay.read? "10:00:01".toList).get (by decide +kernel)

/-- Two durations at one point, a second apart. -/
def twoDurations (x y : Binary64) : RecordSet :=
  ⟨[⟨firstTime, "A", x⟩, ⟨secondTime, "A", y⟩], [], .zero⟩

def durationPoints (x y : Binary64) : List Point := [⟨firstTime, x⟩, ⟨secondTime, y⟩]

theorem tagReports_twoDurations (x y : Binary64) :
    tagReports (twoDurations x y) = [⟨"A", Series.summarize .point (durationPoints x y)⟩] := by
  have htags : (twoDurations x y).rdtscTags = ["A"] := firstOccurrences_eq_eraseDupsBy ["A", "A"]
  rw [tagReports, htags]
  rfl

/-- They are summarized if they are usable. -/
theorem hasSeries_twoDurations {x y : Binary64} (hx : x.isUsable = true) (hy : y.isUsable = true)
    (htrim : Series.trim (durationPoints x y) = durationPoints x y) :
    ∃ mean, Series.mean? [x, y] = some mean ∧
      (analyze ⟨cyclePerNano, []⟩ (twoDurations x y)).HasSeries
        [field "rdtsc", element 0, field "outcome"]
        (.summarized (Series.describe .point (durationPoints x y) mean)) := by
  have husable : Series.usable (durationPoints x y) = durationPoints x y :=
    List.filter_eq_self.mpr (by simp [durationPoints, hx, hy])
  have henough : Series.minSamples ≤ (Series.usable (durationPoints x y)).length := by
    rw [husable]
    exact Nat.le_refl 2
  obtain ⟨mean, hmean, hsummary⟩ := Series.summarize_of_enough henough .point
  rw [husable, htrim] at hmean hsummary
  refine ⟨mean, hmean, ?_⟩
  rw [← hsummary]
  refine .tag (r := analyze ⟨cyclePerNano, []⟩ (twoDurations x y)) (i := 0) (t := ⟨"A", _⟩) ?_
  exact congrArg (fun reports => reports[0]?) (tagReports_twoDurations x y)

theorem sort_of_sorted {xs : List Binary64} (h : xs.Pairwise fun x y => x.totalLE y = true) :
    Binary64.sort xs = xs := List.mergeSort_of_pairwise h

/-- A duration of one unit. -/
def leastDuration : Binary64 := .ofDecimal false 5 (-324)

def longDuration : Binary64 := .ofNat 1000000

/-- Two durations of this length have an infinite sum. -/
def greatDuration : Binary64 := .ofDecimal false 1 308

/-- Nothing lies strictly between. -/
theorem trim_least_long :
    Series.trim (durationPoints leastDuration longDuration) =
      durationPoints leastDuration longDuration := by
  have hsort : Binary64.sort ((durationPoints leastDuration longDuration).map Point.value) =
      (durationPoints leastDuration longDuration).map Point.value :=
    sort_of_sorted (by decide +kernel)
  rw [Series.trim, hsort]
  decide +kernel

theorem trim_great_great :
    Series.trim (durationPoints greatDuration greatDuration) =
      durationPoints greatDuration greatDuration := by
  have hsort : Binary64.sort ((durationPoints greatDuration greatDuration).map Point.value) =
      (durationPoints greatDuration greatDuration).map Point.value :=
    sort_of_sorted (by decide +kernel)
  rw [Series.trim, hsort]
  decide +kernel

/-! ## Numbers of a report -/

/-- **The numbers of every summarized series of a report, and the nulls that they are written as.** A
summary shows some usable points. Its raw values are finite, and positive but for those that their unit
takes to zero; its mean and its smoothed values are finite but for sums that overflow, and no window does if
the series does not. Written as JSON, a report has nulls in its summaries only: one for a mean that
overflows, and those of smoothed values. Under a finite mean these are the first `window - 1`. -/
theorem report_numbers (config : Config) (set : RecordSet) :
    (∀ front s, (analyze config set).HasSeries front (.summarized s) →
      ∃ kept, (∀ p ∈ kept, p.value.isUsable = true) ∧ s.Shows s.kind kept ∧ s.Numeric kept ∧
        (∀ path, NullAt (Outcome.summarized s).toJson path ↔
          (s.meanNanos.isFinite = false ∧ path = [field "mean_ns"]) ∨
          ∃ i, (i < s.count ∧
              (i < s.window - 1 ∨ (Binary64.sum (s.windowAt i)).isFinite = false)) ∧
            path = [field "smoothed_series", element i, field "value"]) ∧
        (s.meanNanos.isFinite = true → ∀ path, NullAt (Outcome.summarized s).toJson path ↔
          ∃ i, i < s.window - 1 ∧ path = [field "smoothed_series", element i, field "value"])) ∧
    ∀ path, NullAt (analyze config set).toJson path ↔
      ∃ front s rest, (analyze config set).HasSeries front (.summarized s) ∧ path = front ++ rest ∧
        NullAt (Outcome.summarized s).toJson rest := by
  constructor
  · intro front s hs
    obtain ⟨kept, husable, hshows, hnumeric⟩ := exists_shows_of_hasSeries hs
    exact ⟨kept, husable, hshows, hnumeric, fun path => Summary.nullAt_iff hshows hnumeric,
      fun hmean path => Summary.nullAt_iff_of_isFinite hshows hnumeric hmean⟩
  · exact fun path => nullAt_analyze_iff

theorem report_numbers_least_long :
    ∃ s kept, (analyze ⟨cyclePerNano, []⟩ (twoDurations leastDuration longDuration)).HasSeries
        [field "rdtsc", element 0, field "outcome"] (.summarized s) ∧
      s.meanNanos.isFinite = true ∧ (∀ p ∈ kept, p.value.isUsable = true) ∧
      s.Shows s.kind kept ∧ s.Numeric kept ∧
      ∀ path, NullAt (Outcome.summarized s).toJson path ↔
        ∃ i, i < s.window - 1 ∧ path = [field "smoothed_series", element i, field "value"] := by
  obtain ⟨mean, hmean, hseries⟩ :=
    hasSeries_twoDurations (by decide +kernel) (by decide +kernel) trim_least_long
  obtain ⟨kept, husable, hshows, hnumeric, _, hnull⟩ :=
    (report_numbers ⟨cyclePerNano, []⟩ (twoDurations leastDuration longDuration)).1 _ _ hseries
  have hfinite : mean.isFinite = true := by
    have hcomputed : Series.mean? [leastDuration, longDuration] = some (.ofNat 500000) := by
      decide +kernel
    rw [Option.some.inj (hmean.symm.trans hcomputed)]
    decide +kernel
  exact ⟨_, kept, hseries, hfinite, husable, hshows, hnumeric, hnull hfinite⟩

/-- **Not all of the numbers are finite, and not all are positive.** Two lines with usable durations have a
mean that is null, and one of two usable durations is shown as zero. -/
theorem report_numbers_of_extremes :
    ((Entry.ofLine cyclePerNano "10:00:00 RDTSC A 1e308".toList).toOption =
        some ⟨firstTime, .rdtsc, "A", greatDuration⟩ ∧
      (Entry.ofLine cyclePerNano "10:00:01 RDTSC A 1e308".toList).toOption =
        some ⟨secondTime, .rdtsc, "A", greatDuration⟩ ∧
      greatDuration.isUsable = true ∧ leastDuration.isUsable = true ∧
      longDuration.isUsable = true) ∧
    (∃ s, (analyze ⟨cyclePerNano, []⟩ (twoDurations greatDuration greatDuration)).HasSeries
        [field "rdtsc", element 0, field "outcome"] (.summarized s) ∧
      s.meanNanos.isFinite = false ∧
      NullAt (analyze ⟨cyclePerNano, []⟩ (twoDurations greatDuration greatDuration)).toJson
        [field "rdtsc", element 0, field "outcome", field "mean_ns"]) ∧
    ∃ s, (analyze ⟨cyclePerNano, []⟩ (twoDurations leastDuration longDuration)).HasSeries
        [field "rdtsc", element 0, field "outcome"] (.summarized s) ∧
      ∃ p ∈ s.raw, Binary64.zero.lt p.value = false := by
  refine ⟨?_, ?_, ?_⟩
  · decide +kernel
  · obtain ⟨mean, hmean, hseries⟩ :=
      hasSeries_twoDurations (by decide +kernel) (by decide +kernel) trim_great_great
    have hcomputed : Series.mean? [greatDuration, greatDuration] = some (.infinity false) := by
      decide +kernel
    rw [Option.some.inj (hmean.symm.trans hcomputed)] at hseries
    refine ⟨_, hseries, rfl, ?_⟩
    refine nullAt_analyze_iff.mpr ⟨_, _, [field "mean_ns"], hseries, rfl, ?_⟩
    exact Outcome.nullAt_summarized.mpr (Or.inl ⟨rfl, rfl⟩)
  · obtain ⟨mean, hmean, hseries⟩ :=
      hasSeries_twoDurations (by decide +kernel) (by decide +kernel) trim_least_long
    have hcomputed : Series.mean? [leastDuration, longDuration] = some (.ofNat 500000) := by
      decide +kernel
    rw [Option.some.inj (hmean.symm.trans hcomputed)] at hseries
    exact ⟨_, hseries, ⟨firstTime, .zero⟩, by decide +kernel, rfl⟩

end Analysis

end LatencyLog
