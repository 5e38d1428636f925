import LatencyLog.Binary64.Order

/-!
# One place for each number

A sort that is told of ties may leave them in the order in which it found them, and then a sorted list
would remember something of the list it came from. The total order leaves nothing to remember: no two
numbers are at one place (`totalPlace_injective`), neither the two zeros nor two NaNs. So a list and any
reordering of it are sorted into one list (`sort_congr`).
-/

namespace LatencyLog.Binary64

theorem totalLE_trans (x y z : Binary64) (hxy : x.totalLE y = true) (hyz : y.totalLE z = true) :
    x.totalLE z = true := decide_eq_true (Int.le_trans (of_decide_eq_true hxy) (of_decide_eq_true hyz))

theorem totalLE_total (x y : Binary64) : (x.totalLE y || y.totalLE x) = true := by
  rw [totalLE, totalLE, Bool.or_eq_true, decide_eq_true_eq, decide_eq_true_eq]
  exact Int.le_total _ _

theorem sort_perm (xs : List Binary64) : (sort xs).Perm xs := List.mergeSort_perm xs totalLE

/-! ## Places -/

theorem totalMagnitude_nonneg (x : Binary64) : 0 ≤ x.totalMagnitude := by
  cases x with
  | nan s f => exact Int.natCast_nonneg (ceiling + f.bits)
  | infinity s => exact Int.natCast_nonneg ceiling
  | finite s m => exact Int.natCast_nonneg m.units

/-- Finite magnitudes lie below infinity, and the fraction of a NaN is not 0. -/
theorem eq_of_totalMagnitude_eq {x y : Binary64} (hs : x.isNegative = y.isNegative)
    (h : x.totalMagnitude = y.totalMagnitude) : x = y := by
  cases x with
  | nan s f =>
    obtain ⟨n, hn, hlt⟩ := f
    cases y with
    | nan t g =>
      obtain ⟨n', hn', hlt'⟩ := g
      simp only [totalMagnitude, isNegative] at h hs
      obtain rfl : n = n' := by omega
      rw [hs]
    | infinity t =>
      simp only [totalMagnitude] at h
      omega
    | finite t b =>
      have := b.lt_ceiling
      simp only [totalMagnitude] at h
      omega
  | infinity s =>
    cases y with
    | nan t g =>
      have := g.pos
      simp only [totalMagnitude] at h
      omega
    | infinity t => exact congrArg infinity hs
    | finite t b =>
      have := b.lt_ceiling
      simp only [totalMagnitude] at h
      omega
  | finite s a =>
    have := a.lt_ceiling
    cases y with
    | nan t g =>
      simp only [totalMagnitude] at h
      omega
    | infinity t =>
      simp only [totalMagnitude] at h
      omega
    | finite t b =>
      simp only [totalMagnitude, isNegative] at h hs
      rw [hs, Magnitude.ext (Int.ofNat_inj.mp h)]

/-- **No two numbers are at one place.** -/
theorem totalPlace_injective {x y : Binary64} (h : x.totalPlace = y.totalPlace) : x = y := by
  have hx := totalMagnitude_nonneg x
  have hy := totalMagnitude_nonneg y
  unfold totalPlace at h
  -- A negative number is below place 0 and any other is not.
  cases hs : x.isNegative with
  | false =>
    cases ht : y.isNegative with
    | false =>
      simp only [hs, ht, Bool.false_eq_true, if_false] at h
      exact eq_of_totalMagnitude_eq (hs.trans ht.symm) h
    | true =>
      simp only [hs, ht, Bool.false_eq_true, if_false, if_true] at h
      omega
  | true =>
    cases ht : y.isNegative with
    | false =>
      simp only [hs, ht, Bool.false_eq_true, if_false, if_true] at h
      omega
    | true =>
      simp only [hs, ht, if_true] at h
      exact eq_of_totalMagnitude_eq (hs.trans ht.symm) (by omega)

theorem totalLE_antisymm {x y : Binary64} (hxy : x.totalLE y = true) (hyx : y.totalLE x = true) : x = y :=
  totalPlace_injective (Int.le_antisymm (of_decide_eq_true hxy) (of_decide_eq_true hyx))

/-! ## Sorting -/

/-- **A list and its reorderings have one sorted form.** -/
theorem sort_congr {xs ys : List Binary64} (h : xs.Perm ys) : sort xs = sort ys := by
  have hperm : (sort xs).Perm (sort ys) := (sort_perm xs).trans (h.trans (sort_perm ys).symm)
  refine List.Perm.eq_of_pairwise (fun x y _ _ hxy hyx => totalLE_antisymm hxy hyx) ?_ ?_ hperm
  · exact List.pairwise_mergeSort totalLE_trans totalLE_total xs
  · exact List.pairwise_mergeSort totalLE_trans totalLE_total ys

end LatencyLog.Binary64
