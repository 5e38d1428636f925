import LatencyLog.Proofs.Series.RankBounds

/-!
# Quantiles in order

Of values that ascend, quantiles ascend: *a quantile farther along is not lower*. Within two ranks that is so
because every step from the position to the quantile is monotone, rounding included. Between different pairs of
ranks it is so because no quantile leaves its pair, and the pairs meet in a value at most. So the quantile is
known at the ranks themselves: where the position is a whole number it is the value there
(`quantile?_ascends`).

Both zeros may be among the values, and a quantile may be asked at either. So everything goes by heights, and
what is equal is equal as a number.
-/

namespace LatencyLog.Series

open Binary64

/-- Finite values that are not negative, in ascending order. -/
structure Ascending (sorted : List Binary64) : Prop where
  zero_le : ∀ x ∈ sorted, zero.le x = true
  isFinite : ∀ x ∈ sorted, x.isFinite = true
  pairwise : sorted.Pairwise fun x y => x.le y = true

variable {sorted : List Binary64} {q q' : Binary64}

theorem Ascending.height_le (h : Ascending sorted) {i j : Nat} (hij : i ≤ j) {x y : Binary64}
    (hx : sorted[i]? = some x) (hy : sorted[j]? = some y) : x.height ≤ y.height := by
  rcases Nat.eq_or_lt_of_le hij with rfl | hlt
  · exact Nat.le_of_eq (congrArg height (Option.some.inj (hx.symm.trans hy)))
  · have hxy : x.le y = true := by
      obtain ⟨hi, rfl⟩ := List.getElem?_eq_some_iff.mp hx
      obtain ⟨hj, rfl⟩ := List.getElem?_eq_some_iff.mp hy
      exact List.pairwise_iff_getElem.mp h.pairwise i j hi hj hlt
    exact (le_iff_height_le (h.zero_le x (List.mem_of_getElem? hx))
      (h.zero_le y (List.mem_of_getElem? hy))).mp hxy

/-! ## Between two ranks -/

/-- A number is computed from the values at the ranks around a position, which is a height `p`. -/
structure Computed (sorted : List Binary64) (p : Nat) (a b x : Binary64) : Prop where
  lower : sorted[p / unity]? = some a
  upper : sorted[Quotient.ceil p unity]? = some b
  zero_le : zero.le x = true
  height_eq : x.height = interpolate a.height b.height (p % unity)

namespace Computed

variable {p p' : Nat} {a b x a' b' x' : Binary64}

theorem height_lower_le (h : Ascending sorted) (hx : Computed sorted p a b x) : a.height ≤ x.height := by
  have ha := h.zero_le a (List.mem_of_getElem? hx.lower)
  rw [hx.height_eq]
  exact le_interpolate (onGrid_height ha) (height_le_ceiling ha) b.height (p % unity)

theorem height_le_upper (h : Ascending sorted) (hx : Computed sorted p a b x) (hp : OnGrid p)
    (hlt : p < 2 ^ 53 * unity) : x.height ≤ b.height := by
  have hb := h.zero_le b (List.mem_of_getElem? hx.upper)
  rw [hx.height_eq]
  exact interpolate_le (onGrid_height hb) (height_le_ceiling hb)
    (h.height_le (Quotient.floor_le_ceil p unity) hx.lower hx.upper) (onGrid_mod_unity hp hlt)
    (Nat.mod_lt _ unity_pos)

/-- **At a rank it is the value there.** -/
theorem height_eq_lower (h : Ascending sorted) (hx : Computed sorted p a b x) (hp : p % unity = 0) :
    x.height = a.height := by
  have ha := h.zero_le a (List.mem_of_getElem? hx.lower)
  rw [hx.height_eq, hp]
  exact interpolate_zero (onGrid_height ha) (height_le_ceiling ha) b.height

/-- **Farther along it is not lower.** -/
theorem height_mono (h : Ascending sorted) (hx : Computed sorted p a b x) (hx' : Computed sorted p' a' b' x')
    (hpp' : p ≤ p') (hp : OnGrid p) (hlt : p < 2 ^ 53 * unity) : x.height ≤ x'.height := by
  have hfloor : p / unity ≤ p' / unity := Nat.div_le_div_right hpp'
  have hafter := hx'.height_lower_le h
  rcases Nat.eq_or_lt_of_le hfloor with heq | hless
  · obtain rfl : a = a' := Option.some.inj (hx.lower.symm.trans (heq ▸ hx'.lower))
    by_cases hwhole : p % unity = 0
    · rw [hx.height_eq_lower h hwhole]
      exact hafter
    · -- Neither position is at the rank, so both are in front of the next one.
      have hrest : p % unity ≤ p' % unity := by
        have hdiv := Nat.div_add_mod' p unity
        have hdiv' := Nat.div_add_mod' p' unity
        rw [← heq] at hdiv'
        omega
      have hceil : Quotient.ceil p unity = Quotient.ceil p' unity := by
        rw [Quotient.ceil, Quotient.ceil, if_neg hwhole, if_neg (by omega), heq]
      obtain rfl : b = b' := Option.some.inj (hx.upper.symm.trans (hceil ▸ hx'.upper))
      rw [hx.height_eq, hx'.height_eq]
      exact interpolate_mono hrest _ _
  · have hranks : Quotient.ceil p unity ≤ p' / unity :=
      Nat.le_trans (Quotient.ceil_le_succ p unity) hless
    calc x.height ≤ b.height := hx.height_le_upper h hp hlt
      _ ≤ a'.height := h.height_le hranks hx.upper hx'.lower
      _ ≤ x'.height := hafter

end Computed

/-! ## Positions within the list -/

theorem clamp_of_le (hq : zero.le q = true) (hq1 : q.le one = true) : q.clamp .zero .one = q := by
  rw [clamp, if_neg (Bool.eq_false_iff.mp (not_lt_of_le hq)),
    if_neg (Bool.eq_false_iff.mp (not_lt_of_le hq1))]

section Within

variable (hlength : sorted.length < 2 ^ 53) (hq : zero.le q = true) (hq1 : q.le one = true)
include hlength hq hq1

theorem position_within :
    zero.le (position sorted.length q) = true ∧
      (position sorted.length q).height = roundToGrid ((sorted.length - 1) * q.height) 1 ∧
      (position sorted.length q).height ≤ (sorted.length - 1) * unity := by
  have hheight := (le_iff_height_le hq zero_le_one).mp hq1
  rw [height_one] at hheight
  have hposition := height_position (q := q) (Nat.le_of_lt hlength)
  rw [clamp_of_le hq hq1] at hposition
  exact hposition hq hheight

theorem words_position :
    (position sorted.length q).floorWord = (position sorted.length q).height / unity ∧
      (position sorted.length q).ceilWord = Quotient.ceil (position sorted.length q).height unity ∧
      Quotient.ceil (position sorted.length q).height unity ≤ sorted.length - 1 := by
  obtain ⟨hpos, _, hlast⟩ := position_within hlength hq hq1
  have hmax : 2 ^ 53 ≤ maxWord := by decide +kernel
  have hceil := Quotient.ceil_le hlast
  have hfloor := Quotient.floor_le_ceil (position sorted.length q).height unity
  rw [floorWord_of_zero_le hpos, ceilWord_of_zero_le hpos]
  exact ⟨Nat.min_eq_right (by omega), Nat.min_eq_right (by omega), hceil⟩

/-- What a position has beyond its lower rank is exact. -/
theorem height_fraction :
    zero.le (position sorted.length q - ofNat (lowerRank sorted.length q)) = true ∧
      (position sorted.length q - ofNat (lowerRank sorted.length q)).height =
        (position sorted.length q).height % unity := by
  obtain ⟨hpos, _, hlast⟩ := position_within hlength hq hq1
  obtain ⟨hfloor, _, _⟩ := words_position hlength hq hq1
  have hlt : (position sorted.length q).height < 2 ^ 53 * unity := by
    refine Nat.lt_of_le_of_lt hlast (Nat.mul_lt_mul_of_pos_right ?_ unity_pos)
    omega
  have hrank : lowerRank sorted.length q ≤ 2 ^ 53 :=
    Nat.le_trans (lowerRank_le (Nat.le_of_lt hlength) q) (by omega)
  obtain ⟨w, hw, hwunits⟩ := ofNat_exact hrank
  have hwheight : (finite false w).height = lowerRank sorted.length q * unity := by rw [height_finite, hwunits]
  rw [lowerRank, hfloor] at hwheight
  have hfinite : (position sorted.length q).isFinite = true := by
    rw [isFinite_iff_height_lt hpos]
    exact Nat.lt_trans hlt (by decide +kernel)
  obtain ⟨hsub, hheight⟩ := height_sub (x := finite false w) (zero_le_iff.mpr ⟨w.units, rfl⟩) hpos hfinite
    (by rw [hwheight]; exact Nat.div_mul_le_self _ _)
  have hrest : (position sorted.length q).height - (position sorted.length q).height / unity * unity =
      (position sorted.length q).height % unity := (Nat.mod_eq_sub_div_mul ..).symm
  rw [hwheight, hrest, roundToGrid_of_onGrid (onGrid_mod_unity (onGrid_height hpos) hlt)] at hheight
  rw [hw]
  exact ⟨hsub, hheight⟩

/-- **A quantile is computed from the values around its position.** -/
theorem exists_computed (h : Ascending sorted) (hne : sorted ≠ []) :
    ∃ a b x, Computed sorted (position sorted.length q).height a b x ∧ quantile? sorted q = some x := by
  obtain ⟨hlower, hupper, hquantile⟩ :=
    readsWithin_of_lowerRank_le hne (lowerRank_le (Nat.le_of_lt hlength) q)
  obtain ⟨hfloor, hceil, hlast⟩ := words_position hlength hq hq1
  obtain ⟨ht, htheight⟩ := height_fraction hlength hq hq1
  have hlowerRank : lowerRank sorted.length q = (position sorted.length q).height / unity := hfloor
  have hupperRank : upperRank sorted.length q = Quotient.ceil (position sorted.length q).height unity := by
    rw [upperRank, hceil, Nat.min_eq_left hlast]
  have ha := List.getElem?_eq_getElem hlower
  have hb := List.getElem?_eq_getElem hupper
  have hmem := List.getElem_mem hupper
  have hranks : lowerRank sorted.length q ≤ upperRank sorted.length q := by
    rw [hlowerRank, hupperRank]
    exact Quotient.floor_le_ceil _ _
  obtain ⟨hx, hxheight⟩ := height_add_sub_mul (h.zero_le _ (List.getElem_mem hlower)) (h.zero_le _ hmem)
    (h.isFinite _ hmem) (h.height_le hranks ha hb) ht (by rw [htheight]; exact Nat.mod_lt _ unity_pos)
  rw [htheight] at hxheight
  exact ⟨_, _, _, ⟨by rw [← hlowerRank]; exact ha, by rw [← hupperRank]; exact hb, hx, hxheight⟩, hquantile⟩

end Within

theorem height_of_whole {x : Binary64} (hx : zero.le x = true) {k : Nat} (h : x.Whole k) :
    x.height = k * unity := by
  have hplace := place?_of_units? h
  rw [place?_of_zero_le hx] at hplace
  exact Int.ofNat_inj.mp (Option.some.inj hplace)

/-- **Quantiles ascend, and each is between the values at the ranks around its position.** Where the position
is a whole number, the quantile is the value at that rank. -/
theorem quantile?_ascends (h : Ascending sorted) (hne : sorted ≠ []) (hlength : sorted.length < 2 ^ 53)
    (hq : zero.le q = true) (hqq' : q.le q' = true) (hq' : q'.le one = true) :
    ∃ a b x x',
      sorted[(ofNat (sorted.length - 1) * q).floorWord]? = some a ∧
      sorted[(ofNat (sorted.length - 1) * q).ceilWord]? = some b ∧
      quantile? sorted q = some x ∧ a.le x = true ∧ x.le b = true ∧
      (∀ k : Nat, (ofNat (sorted.length - 1) * q).Whole k →
        ∃ y, sorted[k]? = some y ∧ x.eq y = true) ∧
      quantile? sorted q' = some x' ∧ x.le x' = true := by
  have hq1 := le_trans hqq' hq'
  have hq0' := le_trans hq hqq'
  obtain ⟨hpos, hheight, hlast⟩ := position_within hlength hq hq1
  obtain ⟨_, hheight', _⟩ := position_within hlength hq0' hq'
  obtain ⟨hfloor, hceil, _⟩ := words_position hlength hq hq1
  obtain ⟨a, b, x, hx, hquantile⟩ := exists_computed hlength hq hq1 h hne
  obtain ⟨a', b', x', hx', hquantile'⟩ := exists_computed hlength hq0' hq' h hne
  have hlt : (position sorted.length q).height < 2 ^ 53 * unity :=
    Nat.lt_of_le_of_lt hlast (Nat.mul_lt_mul_of_pos_right (by omega) unity_pos)
  have hpp' : (position sorted.length q).height ≤ (position sorted.length q').height := by
    rw [hheight, hheight']
    refine roundToGrid_mono Nat.one_pos (Nat.mul_le_mul_left _ ?_)
    exact (le_iff_height_le hq hq0').mp hqq'
  have hposition : ofNat (sorted.length - 1) * q = position sorted.length q := by
    rw [position, clamp_of_le hq hq1]
  have ha := h.zero_le a (List.mem_of_getElem? hx.lower)
  have hb := h.zero_le b (List.mem_of_getElem? hx.upper)
  have hgrid := onGrid_height hpos
  rw [hposition, hfloor, hceil]
  refine ⟨a, b, x, x', hx.lower, hx.upper, hquantile, ?_, ?_, fun k hk => ?_, hquantile', ?_⟩
  · exact (le_iff_height_le ha hx.zero_le).mpr (hx.height_lower_le h)
  · exact (le_iff_height_le hx.zero_le hb).mpr (hx.height_le_upper h hgrid hlt)
  · have hrank := height_of_whole hpos hk
    have hlower := hx.lower
    rw [hrank, Nat.mul_div_cancel k unity_pos] at hlower
    refine ⟨a, hlower, (eq_iff_height_eq hx.zero_le ha).mpr (hx.height_eq_lower h ?_)⟩
    rw [hrank]
    exact Nat.mul_mod_left k unity
  · exact (le_iff_height_le hx.zero_le hx'.zero_le).mpr (hx.height_mono h hx' hpp' hgrid hlt)

/-- Both zeros, and the least and the greatest of the positive numbers. -/
def endToEnd : List Binary64 :=
  [negativeZero, zero, negativeZero, .ofDecimal false 5 (-324), ofNat 3, .ofDecimal false 17976931348623157 292]

theorem ascending_endToEnd : Ascending endToEnd := by
  constructor <;> decide +kernel

theorem quantile?_ascends_endToEnd :
    Ascending endToEnd ∧ endToEnd ≠ [] ∧ endToEnd.length < 2 ^ 53 ∧ zero.le negativeZero = true ∧
      negativeZero.le trimHigh = true ∧ trimHigh.le one = true ∧
      ∃ x x', quantile? endToEnd negativeZero = some x ∧ quantile? endToEnd trimHigh = some x' ∧
        x.eq zero = true ∧ x.le x' = true := by
  have hne : endToEnd ≠ [] := by decide
  have hlength : endToEnd.length < 2 ^ 53 := by decide
  have hhigh : negativeZero.le trimHigh = true := by decide +kernel
  have hone : trimHigh.le one = true := by decide +kernel
  obtain ⟨a, b, x, x', ha, _, hx, _, _, hwhole, hx', hle⟩ :=
    quantile?_ascends ascending_endToEnd hne hlength zero_le_negativeZero hhigh hone
  obtain ⟨y, hy, heq⟩ := hwhole 0 (by decide +kernel)
  obtain rfl : negativeZero = y := Option.some.inj hy
  refine ⟨ascending_endToEnd, hne, hlength, zero_le_negativeZero, hhigh, hone, x, x', hx, hx', ?_, hle⟩
  exact heq

end LatencyLog.Series
