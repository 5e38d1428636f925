import LatencyLog.Proofs.Binary64.TotalOrder
import LatencyLog.Proofs.Series.Trimming

/-!
# A series in another order

What is said of a series says most of it of the values and not of their order. Trimming sorts the values
first, and a list has one sorted form whatever order it was in, so the bounds are the same and the same
points are between them (`trim_perm`). A histogram adds up counts, and it does not matter which of two
values is counted first (`recordWord_comm`): one class is there once, wherever it was put, and the extremes
are a minimum and a maximum.

What is left is the mean. A sum of rounded numbers does depend on their order, and with the mean the unit
may change, and with the unit what is shown of each point. `Summary.Alike` is what two summaries have in
common, and the summaries of a series and of a reordering of it are alike (`summarize_reordered`). Their
means need not be equal (`summarize_reordered_greatFirst`).
-/

namespace LatencyLog

/-! ## Counting in another order -/

namespace Histogram

theorem bump_comm_of_lt {a b : Nat} (hab : a < b) (counts : List (Nat × Nat)) :
    bump a (bump b counts) = bump b (bump a counts) := by
  induction counts with
  | nil => rw [bump, bump, bump_of_lt hab, bump_of_gt hab, bump]
  | cons entry rest ih =>
    obtain ⟨c, n⟩ := entry
    rcases Nat.lt_trichotomy a c with hac | rfl | hca
    · -- `a` comes in front of the entry, wherever `b` goes.
      rw [bump_of_lt hac, bump_of_gt hab]
      rcases Nat.lt_trichotomy b c with hbc | rfl | hcb
      · rw [bump_of_lt hbc, bump_of_lt hab]
      · rw [bump_self, bump_of_lt hab]
      · rw [bump_of_gt hcb, bump_of_lt hac]
    · rw [bump_of_gt hab, bump_self, bump_self, bump_of_gt hab]
    · have hcb := Nat.lt_trans hca hab
      rw [bump_of_gt hcb, bump_of_gt hca, bump_of_gt hca, bump_of_gt hcb, ih]

theorem bump_comm (a b : Nat) (counts : List (Nat × Nat)) :
    bump a (bump b counts) = bump b (bump a counts) := by
  rcases Nat.lt_trichotomy a b with hab | rfl | hba
  · exact bump_comm_of_lt hab counts
  · rfl
  · exact (bump_comm_of_lt hba counts).symm

theorem widen_comm (v w : Nat) (extremes : Option (Nat × Nat)) :
    widen v (some (widen w extremes)) = widen w (some (widen v extremes)) := by
  cases extremes with
  | none => exact Prod.ext (Nat.min_comm w v) (Nat.max_comm w v)
  | some pair => exact Prod.ext (Nat.min_right_comm pair.1 w v) (Nat.max_right_comm pair.2 w v)

/-- **It does not matter which of two values is counted first.** -/
theorem recordWord_comm (h : Histogram) (v w : Nat) :
    (h.recordWord v).recordWord w = (h.recordWord w).recordWord v := by
  simp only [recordWord, bump_comm (LatencyClass.bottom w), widen_comm w]

theorem record_comm (h : Histogram) (x y : Binary64) :
    (h.record x).record y = (h.record y).record x := by
  unfold record
  cases word? x with
  | none => rfl
  | some v =>
    cases word? y with
    | none => rfl
    | some w => exact recordWord_comm h v w

theorem extend_congr {xs ys : List Binary64} (h : xs.Perm ys) (hist : Histogram) :
    hist.extend xs = hist.extend ys :=
  h.foldl_eq' (fun x _ y _ hist => record_comm hist x y) hist

end Histogram

/-! ## What summaries have in common -/

/-- Two summaries have in common what the order of a series does not decide. -/
structure Summary.Alike (s s' : Summary) : Prop where
  kind_eq : s.kind = s'.kind
  count_eq : s.count = s'.count
  window_eq : s.window = s'.window
  distribution_eq : s.distribution = s'.distribution
  /-- In one unit the same points are shown. -/
  raw_perm : s.unit = s'.unit → s.raw.Perm s'.raw
  /-- In two units they are shown at the same times. -/
  times_perm : (s.raw.map Point.time).Perm (s'.raw.map Point.time)

/-- Two outcomes are of one sort, with the same number of usable values or with summaries that are alike. -/
inductive Outcome.Alike : Outcome → Outcome → Prop where
  | insufficient (usable : Nat) : Alike (.insufficient usable) (.insufficient usable)
  | summarized {s s' : Summary} (alike : s.Alike s') : Alike (.summarized s) (.summarized s')

namespace Series

variable {points points' : List Point}

/-! ## Trimming in another order -/

theorem strictlyBetween_perm (h : points.Perm points') (low high : Binary64) :
    (strictlyBetween low high points).Perm (strictlyBetween low high points') := h.filter _

/-- **Trimming keeps the same points in whatever order they are.** -/
theorem trim_perm (h : points.Perm points') : (trim points).Perm (trim points') := by
  have hsort : Binary64.sort (points.map Point.value) = Binary64.sort (points'.map Point.value) :=
    Binary64.sort_congr (h.map Point.value)
  simp only [trim, hsort]
  split
  · rename_i low high _ _
    have hkept := strictlyBetween_perm h low high
    rw [hkept.isEmpty_eq]
    split
    · exact h
    · exact hkept
  · exact h

theorem usable_perm (h : points.Perm points') : (usable points).Perm (usable points') := h.filter _

/-! ## Describing in another order -/

theorem describe_alike {kept kept' : List Point} (h : kept.Perm kept') (kind : SeriesKind)
    (mean mean' : Binary64) : (describe kind kept mean).Alike (describe kind kept' mean') := by
  have hcount : (describe kind kept mean).count = (describe kind kept' mean').count :=
    (h.map Point.value).length_eq
  have hunit : ∀ kept mean, (describe kind kept mean).unit = kind.unitFor mean := fun _ _ => rfl
  refine ⟨rfl, hcount, ?_, ?_, fun hunits => ?_, ?_⟩
  · rw [describe_window, describe_window, hcount]
  · exact congrArg Histogram.distribution (Histogram.extend_congr (h.map Point.value) .empty)
  · rw [hunit, hunit] at hunits
    rw [describe_raw, describe_raw, hunits]
    exact h.map _
  · rw [describe_raw, describe_raw, List.map_map, List.map_map]
    exact h.map Point.time

/-- **A series and a reordering of it have outcomes that are alike**, and trimming, which takes any points,
usable or not, keeps the same ones of both. -/
theorem summarize_reordered (kind : SeriesKind) (h : points.Perm points') :
    (trim points).Perm (trim points') ∧
      (summarize kind points).Alike (summarize kind points') := by
  refine ⟨trim_perm h, ?_⟩
  have husable := usable_perm h
  rcases Nat.lt_or_ge (usable points).length minSamples with hfew | henough
  · have hfew' : (usable points').length < minSamples := husable.length_eq ▸ hfew
    rw [summarize_of_few hfew, summarize_of_few hfew', husable.length_eq]
    exact .insufficient _
  · have henough' : minSamples ≤ (usable points').length := husable.length_eq ▸ henough
    obtain ⟨mean, _, hsummary⟩ := summarize_of_enough henough kind
    obtain ⟨mean', _, hsummary'⟩ := summarize_of_enough henough' kind
    rw [hsummary, hsummary']
    exact .summarized (describe_alike (trim_perm husable) kind mean mean')

/-- Points of one time. -/
def atNoon (values : List Nat) : List Point := values.map fun n => ⟨pastNoon, .ofNat n⟩

/-- 2^54 and 2 are 2^54, so nothing is left of the values that follow it in a sum. -/
def greatFirst : List Point := atNoon [1, 2 ^ 54, 2, 2, 2 ^ 56]

def greatLast : List Point := atNoon [1, 2, 2, 2 ^ 54, 2 ^ 56]

theorem greatFirst_perm : greatFirst.Perm greatLast := by decide +kernel

theorem sort_greatLast : Binary64.sort (greatLast.map Point.value) = greatLast.map Point.value :=
  Binary64.sort_eq_of_perm (by decide +kernel) (List.Perm.refl _) (by decide +kernel)

theorem trim_greatLast : trim greatLast = atNoon [2, 2, 2 ^ 54] := by
  rw [trim, sort_greatLast]
  decide +kernel

theorem trim_greatFirst : trim greatFirst = atNoon [2 ^ 54, 2, 2] := by
  rw [trim, Binary64.sort_congr (greatFirst_perm.map Point.value), sort_greatLast]
  decide +kernel

/-- The summaries are alike, and the means are not equal. -/
theorem summarize_reordered_greatFirst :
    greatFirst.Perm greatLast ∧ (trim greatFirst).Perm (trim greatLast) ∧
      ∃ s s', summarize .point greatFirst = .summarized s ∧
        summarize .point greatLast = .summarized s' ∧ s.Alike s' ∧ s.meanNanos ≠ s'.meanNanos := by
  obtain ⟨htrim, halike⟩ := summarize_reordered .point greatFirst_perm
  have hfirst : usable greatFirst = greatFirst := by decide +kernel
  have hlast : usable greatLast = greatLast := by decide +kernel
  have henough : minSamples ≤ (usable greatFirst).length := by decide +kernel
  have henough' : minSamples ≤ (usable greatLast).length := by decide +kernel
  obtain ⟨mean, hmean, hsummary⟩ := summarize_of_enough henough .point
  obtain ⟨mean', hmean', hsummary'⟩ := summarize_of_enough henough' .point
  refine ⟨greatFirst_perm, htrim, _, _, hsummary, hsummary', ?_, fun heq => ?_⟩
  · rw [hsummary, hsummary'] at halike
    cases halike with
    | summarized alike => exact alike
  · rw [hfirst, trim_greatFirst] at hmean
    rw [hlast, trim_greatLast] at hmean'
    have hmeans : mean? ((atNoon [2 ^ 54, 2, 2]).map Point.value) =
        mean? ((atNoon [2, 2, 2 ^ 54]).map Point.value) := by
      rw [hmean, hmean']
      exact congrArg some heq
    exact absurd hmeans (by decide +kernel)

end Series

end LatencyLog
