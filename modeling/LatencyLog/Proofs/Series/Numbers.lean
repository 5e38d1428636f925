import LatencyLog.Proofs.Series.Means
import LatencyLog.Proofs.Series.Shape

/-!
# The numbers of a summary

What is summarized is positive and finite. What is shown of it need not be, at either end of the scale, and
`Summary.Numeric` says how far it is.

At the upper end it is the sum that overflows, and with it the mean, although no value is greater than the
greatest finite number. No smoothed value is infinite unless the mean is: a window has fewer values, and
none greater than before it was scaled. At the lower end it is the scaling that underflows: a value that is
no more than half of its unit's nanoseconds, counted in units of 2^-1074, is shown as zero.

The mean and the smoothed values are positive as long as a series has no more than 2^53 values.
-/

namespace LatencyLog

open Binary64 (zero)

/-! ## Scales -/

namespace LatencyUnit

theorem nanos_pos (u : LatencyUnit) : 0 < u.nanos := by
  cases u <;> decide

theorem exists_divisor (u : LatencyUnit) :
    ∃ m : Binary64.Magnitude, u.divisor = .finite false m ∧ m.units = u.nanos * Binary64.unity := by
  apply Binary64.ofNat_exact
  cases u <;> decide

theorem unity_le_divisor {u : LatencyUnit} {m : Binary64.Magnitude}
    (h : m.units = u.nanos * Binary64.unity) : Binary64.unity ≤ m.units := by
  rw [h]
  exact Nat.le_mul_of_pos_left _ u.nanos_pos

theorem units_divisor_pos {u : LatencyUnit} {m : Binary64.Magnitude}
    (h : m.units = u.nanos * Binary64.unity) : 0 < m.units :=
  Nat.lt_of_lt_of_le Binary64.unity_pos (unity_le_divisor h)

variable {x : Binary64}

theorem zero_le_scale (u : LatencyUnit) (hx : zero.le x = true) : zero.le (u.scale x) = true := by
  obtain ⟨m, hm, hunits⟩ := u.exists_divisor
  rw [scale, hm]
  exact (Binary64.height_div hx (units_divisor_pos hunits)).1

theorem height_scale_le (u : LatencyUnit) (hx : zero.le x = true) :
    (u.scale x).height ≤ x.height := by
  obtain ⟨m, hm, hunits⟩ := u.exists_divisor
  rw [scale, hm]
  exact Binary64.height_div_le hx (unity_le_divisor hunits)

theorem isFinite_scale (u : LatencyUnit) (hx : zero.le x = true) :
    (u.scale x).isFinite = x.isFinite := by
  obtain ⟨m, hm, hunits⟩ := u.exists_divisor
  rw [scale, hm]
  exact Binary64.isFinite_div hx (unity_le_divisor hunits)

/-- **Scaling keeps what is more than half of a unit's nanoseconds.** -/
theorem zero_lt_scale_iff (u : LatencyUnit) (hx : zero.le x = true) :
    zero.lt (u.scale x) = true ↔ u.nanos < 2 * x.height := by
  obtain ⟨m, hm, hunits⟩ := u.exists_divisor
  rw [scale, hm, Binary64.zero_lt_div_iff hx (units_divisor_pos hunits), hunits, ← Nat.mul_assoc]
  exact Nat.mul_lt_mul_right Binary64.unity_pos

end LatencyUnit

/-! ## What is known of the numbers -/

/-- The values of the raw series that are smoothed at a position. -/
def Summary.windowAt (s : Summary) (i : Nat) : List Binary64 :=
  ((s.raw.map Point.value).drop (i + 1 - s.window)).take s.window

/-- The numbers of a summary of some points, all of which are usable. -/
structure Summary.Numeric (s : Summary) (kept : List Point) : Prop where
  /-- The mean is finite unless the sum overflows. -/
  mean_finite : s.meanNanos.isFinite = (Binary64.sum (kept.map Point.value)).isFinite
  mean_pos : s.count ≤ 2 ^ 53 → zero.lt s.meanNanos = true
  raw_finite : ∀ p ∈ s.raw, p.value.isFinite = true ∧ zero.le p.value = true
  /-- A raw value is positive unless it underflows. -/
  raw_pos : ∀ (i : Nat) (p q : Point), kept[i]? = some p → s.raw[i]? = some q → ∀ units : Nat,
    p.value.units? = some (units : Int) → (zero.lt q.value = true ↔ s.unit.nanos < 2 * units)
  /-- A smoothed value is finite unless the sum of its window overflows. -/
  smoothed_finite : ∀ (i : Nat) p x, s.smoothed[i]? = some p → p.value = some x →
    x.isFinite = (Binary64.sum (s.windowAt i)).isFinite
  /-- No window overflows if the series does not. -/
  window_finite : s.meanNanos.isFinite = true → ∀ i,
    (Binary64.sum (s.windowAt i)).isFinite = true
  /-- A smoothed value is positive unless a raw value of its window is not. -/
  smoothed_pos : s.count ≤ 2 ^ 53 → ∀ i p x, s.smoothed[i]? = some p → p.value = some x →
    (∀ y ∈ s.windowAt i, zero.lt y = true) → zero.lt x = true

namespace Summary.Shows

variable {s : Summary} {kind : SeriesKind} {kept : List Point}

theorem window_pos (h : s.Shows kind kept) : 0 < s.window := by
  rw [h.window_eq]
  exact Nat.le_max_left 1 _

/-- The window at a position is made of some of the points, scaled. -/
theorem windowAt_eq (h : s.Shows kind kept) (i : Nat) :
    s.windowAt i =
      ((kept.drop (i + 1 - s.window)).take s.window).map fun p => s.unit.scale p.value := by
  rw [Summary.windowAt, h.raw_eq, List.map_map, ← List.map_drop, ← List.map_take]
  rfl

theorem window_sublist (s : Summary) (kept : List Point) (i : Nat) :
    ((kept.drop (i + 1 - s.window)).take s.window).Sublist kept :=
  (List.take_sublist _ _).trans (List.drop_sublist _ _)

theorem length_smoothed (h : s.Shows kind kept) : s.smoothed.length = s.count := by
  have htimes := congrArg List.length h.times_eq
  rw [List.length_map, List.length_map, h.raw_eq, List.length_map] at htimes
  rw [htimes, h.count_eq]

/-- Where there is a smoothed value it is the mean of a whole window. -/
theorem exists_mean (h : s.Shows kind kept) {i : Nat} {p : SmoothedPoint} {x : Binary64}
    (hp : s.smoothed[i]? = some p) (hx : p.value = some x) :
    x = Binary64.sum (s.windowAt i) / .ofNat s.window ∧ (s.windowAt i).length = s.window := by
  have hdefined : s.window - 1 ≤ i := by
    refine Nat.le_of_not_lt fun hi => ?_
    rw [(h.undefined_iff i p hp).mpr hi] at hx
    cases hx
  constructor
  · have hmean := h.smoothed_eq i p hp hdefined
    rw [hx] at hmean
    exact Option.some.inj hmean
  · have hi : i < s.count := by
      rw [← h.length_smoothed]
      exact (List.getElem?_eq_some_iff.mp hp).1
    have hcount := h.count_eq
    have hpos := h.window_pos
    rw [h.windowAt_eq, List.length_map, List.length_take, List.length_drop]
    omega

theorem windowAt_ne_nil (h : s.Shows kind kept) {i : Nat} (hi : (s.windowAt i).length = s.window) :
    s.windowAt i ≠ [] := by
  rw [← List.length_pos_iff, hi]
  exact h.window_pos

theorem meanNanos_eq (h : s.Shows kind kept) (hkept : kept ≠ []) :
    s.meanNanos =
      Binary64.sum (kept.map Point.value) / .ofNat (kept.map Point.value).length := by
  have hmean := h.mean_eq
  rw [Series.mean?_of_ne_nil (Series.ne_nil_map_value hkept)] at hmean
  exact (Option.some.inj hmean).symm

section Usable

variable (husable : ∀ p ∈ kept, p.value.isUsable = true)
include husable

theorem zero_lt_of_mem {p : Point} (hp : p ∈ kept) : zero.lt p.value = true :=
  (Bool.and_eq_true_iff.mp (husable p hp)).1

theorem zero_le_of_mem {p : Point} (hp : p ∈ kept) : zero.le p.value = true :=
  Binary64.le_of_lt (zero_lt_of_mem husable hp)

theorem zero_le_of_mem_windowAt (h : s.Shows kind kept) (i : Nat) :
    ∀ y ∈ s.windowAt i, zero.le y = true := by
  rw [h.windowAt_eq]
  refine List.forall_mem_map.mpr fun p hp => ?_
  exact s.unit.zero_le_scale (zero_le_of_mem husable ((window_sublist s kept i).subset hp))

/-- **No window has a greater sum than the series.** -/
theorem height_windowAt_le (h : s.Shows kind kept) (i : Nat) :
    (Binary64.sum (s.windowAt i)).height ≤ (Binary64.sum (kept.map Point.value)).height := by
  rw [h.windowAt_eq]
  exact Series.height_sum_le (window_sublist s kept i)
    (fun p hp => s.unit.zero_le_scale (zero_le_of_mem husable hp))
    (fun p hp => zero_le_of_mem husable hp)
    (fun p hp => s.unit.height_scale_le (zero_le_of_mem husable hp))

theorem zero_le_of_mem_values : ∀ x ∈ kept.map Point.value, zero.le x = true :=
  List.forall_mem_map.mpr fun _ hp => zero_le_of_mem husable hp

theorem isFinite_meanNanos (h : s.Shows kind kept) (hkept : kept ≠ []) :
    s.meanNanos.isFinite = (Binary64.sum (kept.map Point.value)).isFinite := by
  rw [h.meanNanos_eq hkept]
  exact Series.isFinite_mean (Series.ne_nil_map_value hkept) (zero_le_of_mem_values husable)

/-- **The numbers of what is shown.** -/
theorem numeric (h : s.Shows kind kept) (hkept : kept ≠ []) : s.Numeric kept where
  mean_finite := isFinite_meanNanos husable h hkept
  mean_pos hcount := by
    rw [h.meanNanos_eq hkept]
    refine Series.zero_lt_mean (Series.ne_nil_map_value hkept) ?_ ?_
    · exact List.forall_mem_map.mpr fun p hp => zero_lt_of_mem husable hp
    · rwa [List.length_map, ← h.count_eq]
  raw_finite q hq := by
    rw [h.raw_eq] at hq
    obtain ⟨p, hp, rfl⟩ := List.mem_map.mp hq
    have hp0 := zero_le_of_mem husable hp
    refine ⟨?_, s.unit.zero_le_scale hp0⟩
    exact (s.unit.isFinite_scale hp0).trans (Bool.and_eq_true_iff.mp (husable p hp)).2
  raw_pos i p q hp hq units hunits := by
    have hmem := List.mem_of_getElem? hp
    rw [h.raw_eq, List.getElem?_map, hp] at hq
    obtain rfl := Option.some.inj hq
    obtain ⟨m, hm, _⟩ := Binary64.exists_of_isUsable (husable p hmem)
    have hheight : p.value.height = units := by
      rw [hm] at hunits ⊢
      exact Binary64.height_of_place? hunits
    rw [← hheight]
    exact s.unit.zero_lt_scale_iff (zero_le_of_mem husable hmem)
  smoothed_finite i p x hp hx := by
    obtain ⟨rfl, hi⟩ := h.exists_mean hp hx
    rw [← hi]
    exact Series.isFinite_mean (h.windowAt_ne_nil hi) (zero_le_of_mem_windowAt husable h i)
  window_finite hmean i := by
    have hkeptSum := Series.zero_le_sum (zero_le_of_mem_values husable)
    have hwindowSum := Series.zero_le_sum (zero_le_of_mem_windowAt husable h i)
    rw [isFinite_meanNanos husable h hkept, Binary64.isFinite_iff_height_lt hkeptSum] at hmean
    rw [Binary64.isFinite_iff_height_lt hwindowSum]
    exact Nat.lt_of_le_of_lt (height_windowAt_le husable h i) hmean
  smoothed_pos hcount i p x hp hx hpos := by
    obtain ⟨rfl, hi⟩ := h.exists_mean hp hx
    have hle := Nat.le_trans h.window_le hcount
    rw [← hi] at hle ⊢
    exact Series.zero_lt_mean (h.windowAt_ne_nil hi) hpos hle

end Usable

end Summary.Shows

/-! ## Summaries -/

theorem Series.exists_shows {kind : SeriesKind} {points : List Point} {s : Summary}
    (h : summarize kind points = .summarized s) :
    ∃ kept, kept ≠ [] ∧ kept.Sublist (usable points) ∧ s.Shows kind kept := by
  obtain ⟨husable, mean, hmean, rfl⟩ := exists_describe h
  have hsublist := trim_sublist husable
  exact ⟨trim (usable points), trim_ne_nil husable, hsublist, describe_shows (trim_ne_nil husable)
    (fun p hp => isUsable_of_mem_usable (hsublist.subset hp)) hmean⟩

end LatencyLog
