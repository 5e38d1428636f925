import LatencyLog.Proofs.Binary64.TotalOrder
import LatencyLog.Proofs.Series.Positions
import LatencyLog.Proofs.Series.Shape
import Mathlib.Data.List.Basic

/-!
# Trimming by rank

The bounds that a series is trimmed by are computed with rounding, and are compared strictly with values
that are not. Where a bound is equal to a value or next to it, rounding decides whether that value stays.
What rounding cannot do is take a bound past one of the two ranks around it (`exists_quantile?_between`).
So trimming is known by ranks but for the values between two neighbouring ones: *what is not strictly
between the outer ranks goes, and what is strictly between the inner ones stays* (`trim_by_rank`), unless
nothing stays and therefore everything does.
-/

namespace LatencyLog

/-! ## Sorted values -/

namespace Binary64

/-- Among usable values the total order is that of the values. -/
theorem le_of_totalLE {x y : Binary64} (hx : x.isUsable = true) (hy : y.isUsable = true)
    (h : x.totalLE y = true) : x.le y = true := by
  obtain ⟨a, rfl, _⟩ := exists_of_isUsable hx
  obtain ⟨b, rfl, _⟩ := exists_of_isUsable hy
  exact finite_le_finite.mpr (Int.ofNat_le.mp (of_decide_eq_true h))

theorem pairwise_le_sort {xs : List Binary64} (h : ∀ x ∈ xs, x.isUsable = true) :
    (sort xs).Pairwise fun x y => x.le y = true := by
  refine (List.pairwise_mergeSort totalLE_trans totalLE_total xs).imp_of_mem fun hx hy hxy => ?_
  exact le_of_totalLE (h _ ((sort_perm xs).mem_iff.mp hx)) (h _ ((sort_perm xs).mem_iff.mp hy)) hxy

theorem eq_of_le_of_le {x y : Binary64} (hx : x.isUsable = true) (hy : y.isUsable = true)
    (hxy : x.le y = true) (hyx : y.le x = true) : x = y := by
  obtain ⟨a, rfl, _⟩ := exists_of_isUsable hx
  obtain ⟨b, rfl, _⟩ := exists_of_isUsable hy
  rw [Magnitude.ext (Nat.le_antisymm (finite_le_finite.mp hxy) (finite_le_finite.mp hyx))]

/-- **Usable values have one order.** -/
theorem sort_eq_of_perm {xs ys : List Binary64} (husable : ∀ x ∈ xs, x.isUsable = true)
    (hperm : xs.Perm ys) (hys : ys.Pairwise fun x y => x.le y = true) : sort xs = ys := by
  have hsort := (sort_perm xs).trans hperm
  refine List.Perm.eq_of_pairwise (fun x y hx hy hxy hyx => ?_) (pairwise_le_sort husable) hys hsort
  exact eq_of_le_of_le (husable x ((sort_perm xs).mem_iff.mp hx)) (husable y (hperm.mem_iff.mpr hy)) hxy hyx

end Binary64

namespace Series

open Binary64

variable {points : List Point}

/-! ## Strictly between -/

/-- Wider bounds leave more. -/
theorem strictlyBetween_sublist_of_le {low low' high high' : Binary64} (hlow : low'.le low = true)
    (hhigh : high.le high' = true) (points : List Point) :
    (strictlyBetween low high points).Sublist (strictlyBetween low' high' points) := by
  refine List.monotone_filter_right points fun x hx => ?_
  obtain ⟨hlt, hlt'⟩ := Bool.and_eq_true_iff.mp hx
  exact Bool.and_eq_true_iff.mpr ⟨lt_of_le_of_lt hlow hlt, lt_of_lt_of_le hlt' hhigh⟩

theorem mem_strictlyBetween {low high : Binary64} {x : Point} :
    x ∈ strictlyBetween low high points ↔
      x ∈ points ∧ low.lt x.value = true ∧ x.value.lt high = true := by
  rw [strictlyBetween, List.mem_filter, Bool.and_eq_true_iff]

theorem not_mem_strictlyBetween_of_le {low high : Binary64} {x : Point}
    (h : x.value.le low = true ∨ high.le x.value = true) : x ∉ strictlyBetween low high points := by
  intro hx
  obtain ⟨_, hlt, hlt'⟩ := mem_strictlyBetween.mp hx
  rcases h with hle | hle
  · rw [not_lt_of_le hle] at hlt
    cases hlt
  · rw [not_lt_of_le hle] at hlt'
    cases hlt'

theorem trim_eq_of_quantile? {low high : Binary64}
    (hlow : quantile? (sort (points.map Point.value)) trimLow = some low)
    (hhigh : quantile? (sort (points.map Point.value)) trimHigh = some high) :
    trim points = if (strictlyBetween low high points).isEmpty then points
      else strictlyBetween low high points := by
  simp only [trim, hlow, hhigh]

/-! ## The ranks around the bounds -/

/-- The values at the ranks around the two positions that the bounds of trimming are computed at. -/
structure Ranks (points : List Point) (a b c d : Binary64) : Prop where
  lowFloor : (sort (points.map Point.value))[(ofNat (points.length - 1) * trimLow).floorWord]? = some a
  lowCeil : (sort (points.map Point.value))[(ofNat (points.length - 1) * trimLow).ceilWord]? = some b
  highFloor : (sort (points.map Point.value))[(ofNat (points.length - 1) * trimHigh).floorWord]? = some c
  highCeil : (sort (points.map Point.value))[(ofNat (points.length - 1) * trimHigh).ceilWord]? = some d

theorem trimLow_clamp_eq : trimLow.clamp .zero .one = trimLow := by decide +kernel

theorem trimHigh_clamp_eq : trimHigh.clamp .zero .one = trimHigh := by decide +kernel

/-- Each bound is between the values at its ranks. -/
theorem exists_ranks (hne : points ≠ []) (hlength : points.length < 2 ^ 53)
    (husable : ∀ x ∈ points, x.value.isUsable = true) :
    ∃ a b c d low high, Ranks points a b c d ∧
      quantile? (sort (points.map Point.value)) trimLow = some low ∧
      quantile? (sort (points.map Point.value)) trimHigh = some high ∧
      (a.le low = true ∧ low.le b = true) ∧ c.le high = true ∧ high.le d = true := by
  have hperm := sort_perm (points.map Point.value)
  have hlen : (sort (points.map Point.value)).length = points.length := by
    rw [hperm.length_eq, List.length_map]
  have hvalues : ∀ x ∈ points.map Point.value, x.isUsable = true := List.forall_mem_map.mpr husable
  have hsorted := pairwise_le_sort hvalues
  have husable' : ∀ x ∈ sort (points.map Point.value), x.isUsable = true :=
    fun x hx => hvalues x (hperm.mem_iff.mp hx)
  have hne' : sort (points.map Point.value) ≠ [] := by
    rw [← List.length_pos_iff, hlen]
    exact List.length_pos_iff.mpr hne
  have hlength' : (sort (points.map Point.value)).length < 2 ^ 53 := by rwa [hlen]
  obtain ⟨m, hm, _, hmle⟩ := trimLow_clamp
  obtain ⟨n, hn, _, hnle⟩ := trimHigh_clamp
  obtain ⟨a, b, low, ha, hb, hlow, halow, hlowb⟩ :=
    exists_quantile?_between hne' hlength' husable' hsorted hm (by omega)
  obtain ⟨c, d, high, hc, hd, hhigh, hchigh, hhighd⟩ :=
    exists_quantile?_between hne' hlength' husable' hsorted hn (by omega)
  rw [hlen, trimLow_clamp_eq] at ha hb
  rw [hlen, trimHigh_clamp_eq] at hc hd
  exact ⟨a, b, c, d, low, high, ⟨ha, hb, hc, hd⟩, hlow, hhigh, ⟨halow, hlowb⟩, hchigh, hhighd⟩

/-- A value at a rank is one of the values. -/
theorem exists_mem_of_rank {i : Nat} {x : Binary64} (h : (sort (points.map Point.value))[i]? = some x) :
    ∃ p ∈ points, p.value = x :=
  List.mem_map.mp ((sort_perm _).mem_iff.mp (List.mem_of_getElem? h))

/-! ## What is trimmed -/

/-- **Trimming is bounded by ranks.** Either everything stays, or some points stay in their order, and these
are: all that are strictly between the inner ranks, and none that is not strictly between the outer ones. So
the least and the greatest values are gone then. Everything stays if nothing is strictly between the outer
ranks, and not if something is strictly between the inner ones. -/
theorem trim_by_rank (hne : points ≠ []) (hlength : points.length < 2 ^ 53)
    (husable : ∀ x ∈ points, x.value.isUsable = true) :
    ∃ a b c d, Ranks points a b c d ∧
      (trim points = points ∨
        trim points ≠ [] ∧ (trim points).Sublist points ∧
        (∀ x ∈ points, x.value.le a = true ∨ d.le x.value = true → x ∉ trim points) ∧
        (∀ x ∈ trim points, (∃ y ∈ points, y.value.lt x.value = true) ∧
          ∃ y ∈ points, x.value.lt y.value = true) ∧
        (strictlyBetween b c points).Sublist (trim points)) ∧
      (strictlyBetween a d points = [] → trim points = points) ∧
      (strictlyBetween b c points ≠ [] → trim points ≠ points) := by
  obtain ⟨a, b, c, d, low, high, hranks, hlow, hhigh, ⟨halow, hlowb⟩, hchigh, hhighd⟩ :=
    exists_ranks hne hlength husable
  have htrim := trim_eq_of_quantile? hlow hhigh
  have houter := strictlyBetween_sublist_of_le halow hhighd points
  have hinner := strictlyBetween_sublist_of_le hlowb hchigh points
  obtain ⟨least, hleast, rfl⟩ := exists_mem_of_rank hranks.lowFloor
  obtain ⟨greatest, hgreatest, rfl⟩ := exists_mem_of_rank hranks.highCeil
  refine ⟨_, b, c, _, hranks, ?_, ?_, ?_⟩
  · rcases Bool.eq_false_or_eq_true (strictlyBetween low high points).isEmpty with hempty | hkept
    · rw [htrim, if_pos hempty]
      exact Or.inl rfl
    · refine Or.inr ⟨trim_ne_nil hne, trim_sublist hne, ?_⟩
      rw [htrim, if_neg (Bool.eq_false_iff.mp hkept)]
      refine ⟨fun x _ hout hx => not_mem_strictlyBetween_of_le hout (houter.subset hx), fun x hx => ?_,
        hinner⟩
      obtain ⟨_, hlt, hlt'⟩ := mem_strictlyBetween.mp (houter.subset hx)
      exact ⟨⟨least, hleast, hlt⟩, greatest, hgreatest, hlt'⟩
  · intro hnil
    rw [hnil, List.sublist_nil] at houter
    rw [htrim, houter, if_pos List.isEmpty_nil]
  · -- What stays then is not everything: the value at the lowest of the ranks is among the points.
    intro hinside heq
    rw [htrim, if_neg] at heq
    · have hmem : least ∈ strictlyBetween low high points := by rwa [heq]
      exact not_mem_strictlyBetween_of_le (Or.inl halow) hmem
    · intro hempty
      rw [List.isEmpty_iff.mp hempty, List.sublist_nil] at hinner
      exact hinside hinner

/-- Out of order, with two least and two greatest values. -/
def tiedEnds : List Point := [3, 1, 5, 2, 1, 5, 4].map fun n => ⟨pastNoon, .ofNat n⟩

theorem sort_tiedEnds : sort (tiedEnds.map Point.value) = [1, 1, 2, 3, 4, 5, 5].map ofNat :=
  sort_eq_of_perm (by decide +kernel) (by decide +kernel) (by decide +kernel)

/-- The ends go, with all their ties. -/
theorem trim_by_rank_tiedEnds :
    tiedEnds ≠ [] ∧ tiedEnds.length < 2 ^ 53 ∧ (∀ x ∈ tiedEnds, x.value.isUsable = true) ∧
      Ranks tiedEnds (.ofNat 1) (.ofNat 1) (.ofNat 5) (.ofNat 5) ∧ trim tiedEnds ≠ tiedEnds ∧
      (∀ x ∈ tiedEnds, x.value.le (.ofNat 1) = true ∨ (ofNat 5).le x.value = true →
        x ∉ trim tiedEnds) ∧
      ([3, 2, 4].map fun n => (⟨pastNoon, .ofNat n⟩ : Point)).Sublist (trim tiedEnds) := by
  have hne : tiedEnds ≠ [] := by decide +kernel
  have hlength : tiedEnds.length < 2 ^ 53 := by decide +kernel
  have husable : ∀ x ∈ tiedEnds, x.value.isUsable = true := by decide +kernel
  have hranks : Ranks tiedEnds (.ofNat 1) (.ofNat 1) (.ofNat 5) (.ofNat 5) := by
    constructor <;> rw [sort_tiedEnds] <;> decide +kernel
  have hbetween : strictlyBetween (.ofNat 1) (.ofNat 5) tiedEnds =
      [3, 2, 4].map fun n => (⟨pastNoon, .ofNat n⟩ : Point) := by decide +kernel
  obtain ⟨a, b, c, d, hranks', hcases, _, hchanged⟩ := trim_by_rank hne hlength husable
  obtain rfl := Option.some.inj (hranks.lowFloor.symm.trans hranks'.lowFloor)
  obtain rfl := Option.some.inj (hranks.lowCeil.symm.trans hranks'.lowCeil)
  obtain rfl := Option.some.inj (hranks.highFloor.symm.trans hranks'.highFloor)
  obtain rfl := Option.some.inj (hranks.highCeil.symm.trans hranks'.highCeil)
  rw [hbetween] at hcases hchanged
  have htrim : trim tiedEnds ≠ tiedEnds := hchanged (by decide +kernel)
  obtain ⟨_, _, hgone, _, hkept⟩ := hcases.resolve_left htrim
  exact ⟨hne, hlength, husable, hranks, htrim, hgone, hkept⟩

end Series

end LatencyLog
