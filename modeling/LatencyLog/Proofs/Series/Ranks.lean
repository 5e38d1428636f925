import LatencyLog.Proofs.Binary64.Rounding
import LatencyLog.Series.Basic

/-!
# The ranks of a quantile

A quantile is read at two positions of a list, and `quantile?` has nothing to say of a list that lacks
one of them. The upper position is kept within the list by definition, and the lower one is not: it is a
product that has been rounded, and it is in the list only as far as the product has not been rounded up
past its end (`exists_quantile?`).

For the two quantiles that trimming takes, that holds of lists of any length (`exists_trim_bounds`): 0.99
is far enough from 1.
-/

namespace LatencyLog.Series

theorem exists_quantile? {sorted : List Binary64} {q : Binary64} (h : sorted ≠ [])
    (hrank : (Binary64.ofNat (sorted.length - 1) * q.clamp .zero .one).floorWord ≤
      sorted.length - 1) : ∃ x, quantile? sorted q = some x := by
  have hlast : sorted.length - 1 < sorted.length :=
    Nat.sub_one_lt_of_lt (List.length_pos_iff.mpr h)
  have hempty : ¬ sorted.isEmpty = true := fun hnil => h (List.isEmpty_iff.mp hnil)
  have hlower := List.getElem?_eq_getElem (Nat.lt_of_le_of_lt hrank hlast)
  have hupper := List.getElem?_eq_getElem (Nat.lt_of_le_of_lt (Nat.min_le_right
    (Binary64.ofNat (sorted.length - 1) * q.clamp .zero .one).ceilWord (sorted.length - 1)) hlast)
  simp only [quantile?, if_neg hempty, hlower, hupper]
  exact ⟨_, rfl⟩

/-- 0.01 is rounded up. -/
theorem trimLow_clamp : ∃ m : Binary64.Magnitude, trimLow.clamp .zero .one = .finite false m ∧
    Binary64.unity ≤ 100 * m.units ∧ 1000000 * m.units ≤ 10001 * Binary64.unity :=
  ⟨⟨Binary64.roundToGrid Binary64.unity 100, Binary64.onGrid_roundToGrid _ _, by decide +kernel⟩,
    by decide +kernel, by decide +kernel, by decide +kernel⟩

/-- 0.99 is rounded down. -/
theorem trimHigh_clamp : ∃ m : Binary64.Magnitude, trimHigh.clamp .zero .one = .finite false m ∧
    989999 * Binary64.unity ≤ 1000000 * m.units ∧ 100 * m.units ≤ 99 * Binary64.unity :=
  ⟨⟨Binary64.roundToGrid (99 * Binary64.unity) 100, Binary64.onGrid_roundToGrid _ _,
    by decide +kernel⟩, by decide +kernel, by decide +kernel, by decide +kernel⟩

/-- **Whatever has a value has bounds to be trimmed by.** -/
theorem exists_trim_bounds {sorted : List Binary64} (h : sorted ≠ []) :
    ∃ low high, quantile? sorted trimLow = some low ∧ quantile? sorted trimHigh = some high := by
  obtain ⟨m, hm, _, hle⟩ := trimLow_clamp
  obtain ⟨n, hn, _, hle'⟩ := trimHigh_clamp
  obtain ⟨low, hlow⟩ : ∃ x, quantile? sorted trimLow = some x := by
    apply exists_quantile? h
    rw [hm]
    exact Binary64.floorWord_ofNat_mul_le _ (by omega)
  obtain ⟨high, hhigh⟩ : ∃ x, quantile? sorted trimHigh = some x := by
    apply exists_quantile? h
    rw [hn]
    exact Binary64.floorWord_ofNat_mul_le _ (by omega)
  exact ⟨low, high, hlow, hhigh⟩

end LatencyLog.Series
