import LatencyLog.Proofs.Series.OrderStatistics
import LatencyLog.Proofs.Series.Positions

/-!
# How accurate a percentile is

Latencies are added to a histogram, one or several at a time. Those that are not negative and finite are
rounded to whole nanoseconds and counted, and the others are passed over (`Histogram.rounded`). A histogram
has forgotten the values themselves, and still has a percentile right but for one part in 1024
(`percentile_near`): the answer is the top of the class of the value at the rank of the percentile, and
class ends are near. So are the least and the greatest value.

The rank is a product that is computed with rounding. It is the rank that the histogram goes by, and the one
that the answer is compared with here; so rounding is no part of the error. It only must not take the rank
past the number of values, and does not as long as that number is exact (`rankAt_le`).
-/

namespace LatencyLog.Histogram

open Binary64

/-! ## What is added -/

/-- What can be added to a histogram: a latency, or a number of them. -/
inductive Addition where
  | record (nanos : Binary64)
  | extend (nanos : List Binary64)

/-- The latencies that are added. -/
def Addition.inputs : Addition → List Binary64
  | record x => [x]
  | extend xs => xs

def add (h : Histogram) : Addition → Histogram
  | .record x => h.record x
  | .extend xs => h.extend xs

/-- The histogram to which some additions have been made. -/
def ofAdditions (additions : List Addition) : Histogram := additions.foldl add empty

theorem add_eq (h : Histogram) (addition : Addition) : h.add addition = h.extend addition.inputs := by
  cases addition with
  | record x => rfl
  | extend xs => rfl

theorem foldl_add (h : Histogram) (additions : List Addition) :
    additions.foldl add h = h.extend (additions.flatMap Addition.inputs) := by
  induction additions generalizing h with
  | nil => rfl
  | cons addition additions ih =>
    rw [List.foldl_cons, List.flatMap_cons, ih, add_eq, extend, extend, extend, List.foldl_append]

/-! ## What is counted -/

/-- A latency in whole nanoseconds, a half going up. A latency that is negative or not finite has none. -/
def wholeNanos? (nanos : Binary64) : Option Nat :=
  if nanos.isFinite && zero.le nanos then some (Quotient.nearestUp nanos.height unity) else none

/-- The added latencies in whole nanoseconds. -/
def rounded (additions : List Addition) : List Nat :=
  (additions.flatMap Addition.inputs).filterMap wholeNanos?

theorem word?_eq (nanos : Binary64) : word? nanos = (wholeNanos? nanos).map (min maxWord) := by
  unfold word? wholeNanos?
  split
  · rename_i hcounted
    rw [roundWord_of_zero_le (Bool.and_eq_true_iff.mp hcounted).2]
    rfl
  · rfl

/-- **What is in a histogram are the rounded latencies**, with the greatest word for what is greater. -/
theorem holds_ofAdditions (additions : List Addition) :
    (ofAdditions additions).Holds ((rounded additions).map (min maxWord)) := by
  have hwords : (rounded additions).map (min maxWord) =
      (additions.flatMap Addition.inputs).filterMap word? := by
    rw [rounded, List.map_filterMap]
    exact List.filterMap_congr fun nanos _ => (word?_eq nanos).symm
  rw [hwords, ofAdditions, foldl_add]
  exact holds_extend _

theorem ascending_ofAdditions (additions : List Addition) :
    Ascending (ofAdditions additions).counts := by
  rw [ofAdditions, foldl_add]
  exact ascending_empty.extend _

/-! ## Percentiles as quantiles -/

/-- A percentile up to 100 is a quantile up to 1, and not zero unless it was rounded to it. -/
theorem exists_quantile {p : Binary64} (hle : p.le (.ofNat 100) = true)
    (hpos : zero.lt (p / .ofNat 100) = true) :
    ∃ q : Magnitude, p / .ofNat 100 = finite false q ∧ 0 < q.units ∧ q.units ≤ unity := by
  obtain ⟨d, hd, hdunits⟩ := ofNat_exact (n := 100) (by decide)
  have hdpos : 0 < d.units := hdunits ▸ Nat.mul_pos (by decide) unity_pos
  rw [hd] at hle hpos ⊢
  -- A NaN and the positive infinity are not below 100, and with a sign the quotient is not positive.
  cases p with
  | nan s f => cases hle
  | infinity s =>
    cases s with
    | false =>
      obtain ⟨a, b, ha, hb, hab⟩ := le_iff.mp hle
      cases ha
      cases hb
      exact absurd (Int.ofNat_le.mp hab) (Nat.not_le.mpr d.lt_ceiling)
    | true => cases hpos
  | finite s m =>
    rw [finite_div_finite _ _ _ _ (Nat.ne_of_gt hdpos)] at hpos ⊢
    cases s with
    | false =>
      have hround : roundToGrid (m.units * unity) d.units ≤ unity := by
        refine roundToGrid_le_of_le_mul hdpos onGrid_unity ?_
        rw [Nat.mul_comm unity]
        exact Nat.mul_le_mul_right unity (finite_le_finite.mp hle)
      have hlt : unity < ceiling := by decide +kernel
      obtain ⟨q, hq, hqunits⟩ : ∃ q : Magnitude, ofQuotient false (m.units * unity) d.units =
          finite false q ∧ q.units = roundToGrid (m.units * unity) d.units :=
        exists_ofQuotient_eq_finite (Nat.lt_of_le_of_lt hround hlt) false
      refine ⟨q, hq, zero_lt_finite.mp ?_, hqunits ▸ hround⟩
      rw [← hq]
      exact hpos
    | true =>
      have hneg := not_zero_lt_ofQuotient_true (m.units * unity) d.units
      exact absurd hpos (Bool.eq_false_iff.mp hneg)

section Quantiles

variable {q : Magnitude}

/-- Where the number of values is finite, a rank is a product rounded twice: to the grid, and up. -/
theorem rankAt_finite {n : Nat} {w : Magnitude} (hw : ofNat n = finite false w) :
    rankAt (finite false q) n = max 1 (min maxWord
      (Quotient.ceil (min (roundToGrid (q.units * w.units) unity) ceiling) unity)) := by
  rw [rankAt, hw, finite_mul_finite_false, ceilWord_of_zero_le (zero_le_ofQuotient _ _),
    height_ofQuotient]

/-- **A rank is not beyond the values**, as long as their number is exact. -/
theorem rankAt_le {n : Nat} (hpos : 1 ≤ n) (hexact : n ≤ 2 ^ 53) (hle : q.units ≤ unity) :
    rankAt (finite false q) n ≤ n := by
  obtain ⟨w, hw, hwunits⟩ := ofNat_exact hexact
  have hround : roundToGrid (q.units * w.units) unity ≤ n * unity := by
    rw [← hwunits]
    refine roundToGrid_le_of_le_mul unity_pos w.onGrid ?_
    rw [Nat.mul_comm]
    exact Nat.mul_le_mul_left w.units hle
  have hceil := Quotient.ceil_le (Nat.le_trans (Nat.min_le_left _ ceiling) hround)
  rw [rankAt_finite hw]
  omega

end Quantiles

/-! ## The error of an answer -/

section Near

variable {h : Histogram} {words : List Nat}

/-- A quantile is answered just above the value with its rank. -/
theorem valueAtQuantile_near (hold : h.Holds words) (hasc : Ascending h.counts) {q : Magnitude}
    (hpos : 0 < q.units) (hle : q.units ≤ unity) {x : Nat}
    (hx : kthSmallest? words (rankAt (finite false q) words.length) = some x) (hmax : x < maxWord) :
    JustAbove x (h.valueAtQuantile (finite false q)) := by
  rw [valueAtQuantile_eq hold hasc (one_lt_finite hle) (finite_eq_zero hpos), hx]
  exact LatencyClass.justAbove_top hmax

theorem extremes_near (hold : h.Holds words) (hne : words ≠ []) (hwords : ∀ w ∈ words, w ≤ maxWord) :
    ∃ least greatest, words.min? = some least ∧ words.max? = some greatest ∧
      JustBelow least h.distribution.min ∧ JustAbove greatest h.distribution.max := by
  obtain ⟨least, greatest, hmin, hmax, hleast, hgreatest⟩ := exists_extremes hold hne
  refine ⟨least, greatest, hmin, hmax, ?_, ?_⟩
  · show JustBelow least h.least
    rw [hleast]
    exact LatencyClass.justBelow_lowEnd least
  · show JustAbove greatest h.greatest
    rw [hgreatest]
    exact LatencyClass.justAbove_highEnd (hwords greatest (List.max?_mem hmax))

end Near

/-! ## The greatest word for what is greater -/

section Capped

variable {words : List Nat}

theorem kthSmallest?_capped {k x : Nat} (hx : kthSmallest? words k = some x) (hmax : x < maxWord) :
    kthSmallest? (words.map (min maxWord)) k = some x := by
  have hmono : Monotone (min maxWord) := by
    intro v w h
    show min maxWord v ≤ min maxWord w
    omega
  rw [kthSmallest?_map hmono, hx, Option.map_some, Nat.min_eq_right (Nat.le_of_lt hmax)]

theorem map_capped_eq_self (hmax : ∀ x ∈ words, x < maxWord) : words.map (min maxWord) = words := by
  refine (List.map_congr_left fun x hx => ?_).trans (List.map_id words)
  exact Nat.min_eq_right (Nat.le_of_lt (hmax x hx))

end Capped

/-! ## Additions -/

/-- **A percentile is off by less than one part in 1024, and the extremes are.** A percentile is not above
100, and more than zero, also when divided by 100. It is compared with the value at its rank; that there is
one is sure where the number of values is exact. -/
theorem percentile_near (additions : List Addition) (hne : rounded additions ≠ []) :
    (ofAdditions additions).count = (rounded additions).length ∧
    (∀ p : Binary64, p.le (.ofNat 100) = true → zero.lt (p / .ofNat 100) = true →
      ((rounded additions).length ≤ 2 ^ 53 →
        ∃ x, kthSmallest? (rounded additions)
          (rankAt (p / .ofNat 100) (rounded additions).length) = some x) ∧
      ∀ x, kthSmallest? (rounded additions)
          (rankAt (p / .ofNat 100) (rounded additions).length) = some x →
        x < maxWord → JustAbove x ((ofAdditions additions).valueAtPercentile p)) ∧
    ((∀ x ∈ rounded additions, x < maxWord) →
      ∃ least greatest, (rounded additions).min? = some least ∧
        (rounded additions).max? = some greatest ∧
        JustBelow least (ofAdditions additions).distribution.min ∧
        JustAbove greatest (ofAdditions additions).distribution.max) := by
  have hold := holds_ofAdditions additions
  have hasc := ascending_ofAdditions additions
  have hlength : ((rounded additions).map (min maxWord)).length = (rounded additions).length :=
    List.length_map _
  refine ⟨hold.count.trans hlength, fun p hle hpos => ?_, fun hmax => ?_⟩
  · obtain ⟨q, hq, hqpos, hqle⟩ := exists_quantile hle hpos
    rw [valueAtPercentile, hq]
    refine ⟨fun hexact => ?_, fun x hx hmax => ?_⟩
    · exact exists_kthSmallest? (Nat.le_max_left 1 _)
        (rankAt_le (List.length_pos_iff.mpr hne) hexact hqle)
    · rw [← hlength] at hx
      exact valueAtQuantile_near hold hasc hqpos hqle (kthSmallest?_capped hx hmax) hmax
  · rw [map_capped_eq_self hmax] at hold
    exact extremes_near hold hne fun x hx => Nat.le_of_lt (hmax x hx)

/-- Three latencies that are counted, one of them a zero with a sign, among three that are not. -/
def mixed : List Addition :=
  [.record negativeZero,
    .extend [.nan false, .ofInt (-1), .infinity false, .ofDecimal false 124 (-1)],
    .record (.ofDecimal false 50005 (-1))]

/-- The half is rounded up, and the greatest value is seen to be near and not exact. -/
theorem percentile_near_mixed :
    rounded mixed = [0, 12, 5001] ∧ (ofAdditions mixed).count = 3 ∧
      kthSmallest? (rounded mixed) (rankAt (.ofNat 100 / .ofNat 100) 3) = some 5001 ∧
      JustAbove 5001 ((ofAdditions mixed).valueAtPercentile (.ofNat 100)) ∧
      (ofAdditions mixed).valueAtPercentile (.ofNat 100) = 5003 ∧
      ∃ least greatest, (rounded mixed).min? = some least ∧ (rounded mixed).max? = some greatest ∧
        JustBelow least (ofAdditions mixed).distribution.min ∧
        JustAbove greatest (ofAdditions mixed).distribution.max := by
  have hrounded : rounded mixed = [0, 12, 5001] := by decide +kernel
  have hne : rounded mixed ≠ [] := by
    rw [hrounded]
    exact List.cons_ne_nil _ _
  obtain ⟨hcount, hpercentile, hextremes⟩ := percentile_near mixed hne
  have hlength : (rounded mixed).length = 3 := by rw [hrounded]; rfl
  have hrank : rankAt (.ofNat 100 / .ofNat 100) 3 = 3 := by decide +kernel
  have hlast : kthSmallest? (rounded mixed) (rankAt (.ofNat 100 / .ofNat 100) 3) = some 5001 := by
    rw [hrank, hrounded, kthSmallest?, List.mergeSort_of_pairwise (by decide)]
    rfl
  have hnear := (hpercentile (.ofNat 100) (by decide +kernel) (by decide +kernel)).2 5001
    (by rw [hlength]; exact hlast) (by decide)
  have hmax : ∀ x ∈ rounded mixed, x < maxWord := by
    rw [hrounded]
    decide
  exact ⟨hrounded, hcount.trans hlength, hlast, hnear, by decide +kernel, hextremes hmax⟩

end LatencyLog.Histogram
