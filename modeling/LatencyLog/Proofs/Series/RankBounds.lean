import LatencyLog.Proofs.Binary64.Between
import LatencyLog.Proofs.Series.Positions
import LatencyLog.Proofs.Series.Shape

/-!
# A quantile is read within the list

The two ranks of a quantile come from a product that has been rounded, by cutting it to words. The upper rank
is kept within the list by definition; *the lower one is not past the last rank of its own* (`lowerRank_le`),
whatever the values are, whether they are sorted, and whatever number the quantile is asked at. Up to 2^53
values the last rank is a number, so a part of it is not rounded past it; a quantile outside 0 and 1 is one of
these, and a NaN stays one and cuts to rank 0. So there is a quantile of anything but nothing
(`quantile?_in_bounds`).

In longer lists the last rank can itself be rounded up. What trimming asks for is read within a list of any
length (`lowerRank_trimLow_le`, `lowerRank_trimHigh_le`).
-/

namespace LatencyLog

namespace Binary64

/-! ## Kept within 0 and 1 -/

variable {x y : Binary64}

theorem height_one : one.height = unity := by
  rw [one, height_ofNat (by decide), Nat.one_mul]

theorem zero_le_one : zero.le one = true := zero_le_ofNat 1

theorem isNan_mul_right (h : y.isNan = true) (x : Binary64) : (x * y).isNan = true := by
  cases y with
  | nan s f => cases x <;> rfl
  | infinity s => cases h
  | finite s m => cases h

theorem floorWord_of_isNan (h : x.isNan = true) : x.floorWord = 0 := by
  cases x with
  | nan s f => rfl
  | infinity s => cases h
  | finite s m => cases h

theorem exists_place? (hx : x.isNan = false) : ∃ n, x.place? = some n := by
  cases x with
  | nan s f => cases hx
  | infinity s => exact ⟨_, rfl⟩
  | finite s m => exact ⟨_, rfl⟩

/-- Numbers can be compared one way or the other, NaNs apart. -/
theorem le_of_not_lt (hx : x.isNan = false) (hy : y.isNan = false) (h : x.lt y = false) :
    y.le x = true := by
  obtain ⟨a, ha⟩ := exists_place? hx
  obtain ⟨b, hb⟩ := exists_place? hy
  rw [lt_eq_decide ha hb, decide_eq_false_iff_not] at h
  exact le_iff.mpr ⟨b, a, hb, ha, Int.not_lt.mp h⟩

/-- **What is kept within 0 and 1 is there, unless it is a NaN.** -/
theorem clamp_cases (q : Binary64) :
    (q.clamp .zero .one).isNan = true ∨
      zero.le (q.clamp .zero .one) = true ∧ (q.clamp .zero .one).height ≤ unity := by
  cases hnan : q.isNan with
  | true =>
    rw [clamp, if_neg (Bool.eq_false_iff.mp (lt_of_isNan hnan zero).1),
      if_neg (Bool.eq_false_iff.mp (lt_of_isNan hnan one).2)]
    exact Or.inl hnan
  | false =>
    refine Or.inr ?_
    rw [clamp]
    split
    · exact ⟨by decide, by decide +kernel⟩
    · rename_i hlow
      have hzero : zero.le q = true := le_of_not_lt hnan rfl (Bool.eq_false_iff.mpr hlow)
      split
      · exact ⟨zero_le_one, Nat.le_of_eq height_one⟩
      · rename_i hhigh
        have hone : q.le one = true := by
          refine le_of_not_lt ?_ hnan (Bool.eq_false_iff.mpr hhigh)
          decide +kernel
        exact ⟨hzero, height_one ▸ (le_iff_height_le hzero zero_le_one).mp hone⟩

end Binary64

namespace Series

open Binary64

/-! ## Positions and ranks -/

/-- Where a quantile of so many values is. -/
def position (count : Nat) (q : Binary64) : Binary64 := ofNat (count - 1) * q.clamp .zero .one

/-- The rank of the value below a quantile. -/
def lowerRank (count : Nat) (q : Binary64) : Nat := (position count q).floorWord

/-- The rank of the value above it, which is in the list. -/
def upperRank (count : Nat) (q : Binary64) : Nat := min (position count q).ceilWord (count - 1)

variable {count : Nat} {q : Binary64}

/-- **A position is a part of the last rank, rounded, and not past it.** -/
theorem height_position (hcount : count ≤ 2 ^ 53) (hq : zero.le (q.clamp .zero .one) = true)
    (hle : (q.clamp .zero .one).height ≤ unity) :
    zero.le (position count q) = true ∧
      (position count q).height = roundToGrid ((count - 1) * (q.clamp .zero .one).height) 1 ∧
      (position count q).height ≤ (count - 1) * unity := by
  obtain ⟨m, hm, hmunits⟩ := ofNat_exact (n := count - 1) (by omega)
  have hfinite : (q.clamp .zero .one).isFinite = true :=
    isFinite_of_height_le hq zero_le_one (by decide +kernel) (by rwa [height_one])
  obtain ⟨hpos, hheight⟩ :=
    height_mul (x := finite false m) (zero_le_iff.mpr ⟨m.units, rfl⟩) rfl hq hfinite
  have hround : roundToGrid (m.units * (q.clamp .zero .one).height) unity ≤ m.units :=
    roundToGrid_le_of_le_mul unity_pos m.onGrid (Nat.mul_le_mul_left _ hle)
  have hceiling := m.lt_ceiling
  rw [height_finite, Nat.min_eq_left (by omega)] at hheight
  rw [position, hm]
  refine ⟨hpos, ?_, ?_⟩
  · rw [hheight, hmunits, ← roundToGrid_mul_left unity_pos ((count - 1) * _), Nat.mul_one,
      Nat.mul_comm (count - 1), Nat.mul_assoc]
  · rw [hheight, ← hmunits]
    exact hround

/-- **The lower rank is not past the last one.** -/
theorem lowerRank_le (hcount : count ≤ 2 ^ 53) (q : Binary64) : lowerRank count q ≤ count - 1 := by
  rw [lowerRank]
  rcases clamp_cases q with hnan | ⟨hq, hle⟩
  · have hposition : (position count q).isNan = true := isNan_mul_right hnan _
    rw [floorWord_of_isNan hposition]
    exact Nat.zero_le _
  · obtain ⟨hpos, _, hlast⟩ := height_position hcount hq hle
    rw [floorWord_of_zero_le hpos]
    refine Nat.le_trans (Nat.min_le_right _ _) (Nat.div_le_of_le_mul ?_)
    rwa [Nat.mul_comm]

theorem lowerRank_trimLow_le (count : Nat) : lowerRank count trimLow ≤ count - 1 := by
  obtain ⟨m, hm, _, hle⟩ := trimLow_clamp
  rw [lowerRank, position, hm]
  exact floorWord_ofNat_mul_le _ (by omega)

theorem lowerRank_trimHigh_le (count : Nat) : lowerRank count trimHigh ≤ count - 1 := by
  obtain ⟨m, hm, _, hle⟩ := trimHigh_clamp
  rw [lowerRank, position, hm]
  exact floorWord_ofNat_mul_le _ (by omega)

/-! ## Reading -/

/-- Both ranks of a quantile are in a list, and it is computed from what is there. -/
structure ReadsWithin (values : List Binary64) (q : Binary64) : Prop where
  lower_lt : lowerRank values.length q < values.length
  upper_lt : upperRank values.length q < values.length
  quantile_eq : quantile? values q =
    some (values[lowerRank values.length q] +
      (values[upperRank values.length q] - values[lowerRank values.length q]) *
        (position values.length q - ofNat (lowerRank values.length q)))

theorem readsWithin_of_lowerRank_le {values : List Binary64} (hne : values ≠ [])
    (h : lowerRank values.length q ≤ values.length - 1) : ReadsWithin values q := by
  have hlast : values.length - 1 < values.length := Nat.sub_one_lt_of_lt (List.length_pos_iff.mpr hne)
  have hlower : lowerRank values.length q < values.length := Nat.lt_of_le_of_lt h hlast
  have hupper : upperRank values.length q < values.length := Nat.lt_of_le_of_lt (Nat.min_le_right _ _) hlast
  exact ⟨hlower, hupper,
    quantile?_of_getElem? rfl (List.getElem?_eq_getElem hlower) (List.getElem?_eq_getElem hupper)⟩

theorem quantile?_nil (q : Binary64) : quantile? [] q = none := rfl

/-- Nothing has no bounds to be trimmed by, and needs none. -/
theorem trim_nil : trim [] = [] := by
  simp [trim, sort, quantile?_nil]

/-- **A quantile is never read outside of a list.** Of fewer than 2^53 values, in any order, there is a
quantile at any number, unless there is no value. The bounds of trimming are within the list of any points,
however many there are, so trimming has its two bounds. -/
theorem quantile?_in_bounds :
    (∀ (values : List Binary64) (q : Binary64), values.length < 2 ^ 53 →
      (quantile? values q = none ↔ values = []) ∧ (values ≠ [] → ReadsWithin values q)) ∧
    trim [] = [] ∧
    ∀ points : List Point, points ≠ [] →
      ReadsWithin (sort (points.map Point.value)) trimLow ∧
      ReadsWithin (sort (points.map Point.value)) trimHigh ∧
      ∃ low high, quantile? (sort (points.map Point.value)) trimLow = some low ∧
        quantile? (sort (points.map Point.value)) trimHigh = some high ∧
        trim points = if (strictlyBetween low high points).isEmpty then points
          else strictlyBetween low high points := by
  refine ⟨fun values q hlength => ?_, trim_nil, fun points hne => ?_⟩
  · have hreads : values ≠ [] → ReadsWithin values q := fun hne =>
      readsWithin_of_lowerRank_le hne (lowerRank_le (Nat.le_of_lt hlength) q)
    refine ⟨⟨fun hnone => ?_, ?_⟩, hreads⟩
    · cases values with
      | nil => rfl
      | cons x xs =>
        rw [(hreads (List.cons_ne_nil x xs)).quantile_eq] at hnone
        cases hnone
    · rintro rfl
      exact quantile?_nil q
  · have hsorted := sort_values_ne_nil hne
    exact ⟨readsWithin_of_lowerRank_le hsorted (lowerRank_trimLow_le _),
      readsWithin_of_lowerRank_le hsorted (lowerRank_trimHigh_le _), trim_eq hne⟩

/-- As many values as there can be, none of which is a number. -/
def longest : List Binary64 := List.replicate (2 ^ 53 - 1) (.nan true)

theorem length_longest : longest.length = 2 ^ 53 - 1 := List.length_replicate

/-- Beyond the last value of the longest list it is the last value that is read, and there are bounds to trim
infinite values by. -/
theorem quantile?_in_bounds_longest :
    longest.length < 2 ^ 53 ∧ longest ≠ [] ∧ ReadsWithin longest (.infinity false) ∧
      lowerRank longest.length (.infinity false) = longest.length - 1 ∧
      usableAmongOthers ≠ [] ∧ ReadsWithin (sort (usableAmongOthers.map Point.value)) trimHigh := by
  have hlength : longest.length < 2 ^ 53 := by
    rw [length_longest]
    decide
  have hne : longest ≠ [] := by
    rw [← List.length_pos_iff, length_longest]
    decide
  have hpoints : usableAmongOthers ≠ [] := List.cons_ne_nil _ _
  refine ⟨hlength, hne, (quantile?_in_bounds.1 longest (.infinity false) hlength).2 hne, ?_, hpoints,
    (quantile?_in_bounds.2.2 usableAmongOthers hpoints).2.1⟩
  rw [length_longest]
  decide +kernel

/-- With five more values, the last rank is rounded to one that is not there. -/
example : lowerRank (2 ^ 53 + 4) one = 2 ^ 53 + 4 := by decide +kernel

end Series

end LatencyLog
