import LatencyLog.Proofs.Json.Nulls
import LatencyLog.Report.Json

/-!
# Where the nulls of a report are

A report written as JSON has nulls in two kinds of places: where a smoothed value is not defined, and where
a number is not finite. Only numbers that are floats can be that: the frequency, and in a summary the mean,
the raw values and the smoothed ones.
-/

namespace LatencyLog

open Json (NullAt)
open Json.Step (field element)

variable {path : List Json.Step}

@[simp]
theorem Tally.not_nullAt (t : Tally) : ¬ NullAt t.toJson path := by
  simp [Tally.toJson, Json.ofWord]

@[simp]
theorem Distribution.not_nullAt (d : Distribution) : ¬ NullAt d.toJson path := by
  simp [Distribution.toJson]

@[simp]
theorem Hop.not_nullAt (h : Hop) : ¬ NullAt h.toJson path := by
  simp [Hop.toJson]

theorem Json.not_nullAt_ofTime (t : TimeOfDay) : ¬ NullAt (Json.ofTime t) path := by
  rintro ⟨⟩

@[simp]
theorem Point.nullAt_iff {p : Point} :
    NullAt p.toJson path ↔ p.value.isFinite = false ∧ path = [field "value"] := by
  simp [Point.toJson, Json.not_nullAt_ofTime, and_assoc]

/-- A smoothed value is null where there is none, or none that is finite. -/
@[simp]
theorem SmoothedPoint.nullAt_iff {p : SmoothedPoint} :
    NullAt p.toJson path ↔
      (∀ x, p.value = some x → x.isFinite = false) ∧ path = [field "value"] := by
  cases h : p.value with
  | none => simp [SmoothedPoint.toJson, Json.not_nullAt_ofTime, h]
  | some x => simp [SmoothedPoint.toJson, Json.not_nullAt_ofTime, h, and_assoc]

namespace Outcome

theorem not_nullAt_insufficient (usable : Nat) : ¬ NullAt (insufficient usable).toJson path := by
  simp [Outcome.toJson]

/-- **The nulls of a summary.** -/
theorem nullAt_summarized {s : Summary} :
    NullAt (summarized s).toJson path ↔
      (s.meanNanos.isFinite = false ∧ path = [field "mean_ns"]) ∨
      (∃ i p, s.raw[i]? = some p ∧ p.value.isFinite = false ∧
        path = [field "raw_series", element i, field "value"]) ∨
      ∃ i p, s.smoothed[i]? = some p ∧ (∀ x, p.value = some x → x.isFinite = false) ∧
        path = [field "smoothed_series", element i, field "value"] := by
  simp [Outcome.toJson, and_assoc]

end Outcome

theorem TagReport.nullAt_iff {t : TagReport} :
    NullAt t.toJson path ↔ ∃ rest, NullAt t.outcome.toJson rest ∧ path = field "outcome" :: rest := by
  simp [TagReport.toJson]

theorem HopReport.nullAt_iff {h : HopReport} :
    NullAt h.toJson path ↔ ∃ rest, NullAt h.outcome.toJson rest ∧ path = field "outcome" :: rest := by
  simp [HopReport.toJson]

namespace Report

/-- Where a report has the outcome of a series. -/
inductive HasSeries (r : Report) : List Json.Step → Outcome → Prop where
  | tag {i : Nat} {t : TagReport} (position : r.rdtsc[i]? = some t) :
    HasSeries r [field "rdtsc", element i, field "outcome"] t.outcome
  | hop {i : Nat} {h : HopReport} (position : r.hops[i]? = some h) :
    HasSeries r [field "hops", element i, field "outcome"] h.outcome

/-- **The nulls of a report are those of its series, if its frequency is finite.** -/
theorem nullAt_iff {r : Report} (hghz : r.ghz.isFinite = true) :
    NullAt r.toJson path ↔
      ∃ front outcome rest, r.HasSeries front outcome ∧ path = front ++ rest ∧
        NullAt outcome.toJson rest := by
  have hnulls : NullAt r.toJson path ↔
      (∃ i t, r.rdtsc[i]? = some t ∧
        ∃ rest, NullAt t.toJson rest ∧ path = field "rdtsc" :: element i :: rest) ∨
      ∃ i h, r.hops[i]? = some h ∧
        ∃ rest, NullAt h.toJson rest ∧ path = field "hops" :: element i :: rest := by
    simp [Report.toJson, hghz]
  rw [hnulls]
  constructor
  · rintro (⟨i, t, ht, _, houter, rfl⟩ | ⟨i, h, hh, _, houter, rfl⟩)
    · obtain ⟨rest, hnull, rfl⟩ := TagReport.nullAt_iff.mp houter
      exact ⟨_, _, rest, .tag ht, rfl, hnull⟩
    · obtain ⟨rest, hnull, rfl⟩ := HopReport.nullAt_iff.mp houter
      exact ⟨_, _, rest, .hop hh, rfl, hnull⟩
  · rintro ⟨_, _, rest, hseries, rfl, hnull⟩
    cases hseries with
    | tag ht => exact Or.inl ⟨_, _, ht, _, TagReport.nullAt_iff.mpr ⟨rest, hnull, rfl⟩, rfl⟩
    | hop hh => exact Or.inr ⟨_, _, hh, _, HopReport.nullAt_iff.mpr ⟨rest, hnull, rfl⟩, rfl⟩

end Report

end LatencyLog
