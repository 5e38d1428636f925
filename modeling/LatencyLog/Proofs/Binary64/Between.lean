import LatencyLog.Proofs.Binary64.Interpolation
import LatencyLog.Proofs.Binary64.WholeNumbers

/-!
# Between two numbers, by their heights

A number that is not negative can still be the zero with a sign, and then what is computed with it can be that
zero again. Heights do not see it. So a difference that is not below zero, a product, and what lies between two
numbers are said here with heights alone (`height_sub`, `height_mul`, `height_add_sub_mul`), whichever zeros
there are, as sums and quotients are where heights are introduced.

What lies between two heights does not fall as it is taken farther along (`interpolate_mono`). At the start it
is the start (`interpolate_zero`).
-/

namespace LatencyLog.Binary64

/-! ## Order by height -/

variable {x y t : Binary64}

theorem le_iff_height_le (hx : zero.le x = true) (hy : zero.le y = true) :
    x.le y = true ↔ x.height ≤ y.height := by
  rw [le, compareBy, place?_of_zero_le hx, place?_of_zero_le hy, decide_eq_true_eq]
  exact Int.ofNat_le

theorem lt_iff_height_lt (hx : zero.le x = true) (hy : zero.le y = true) :
    x.lt y = true ↔ x.height < y.height := by
  rw [lt, compareBy, place?_of_zero_le hx, place?_of_zero_le hy, decide_eq_true_eq]
  exact Int.ofNat_lt

theorem eq_iff_height_eq (hx : zero.le x = true) (hy : zero.le y = true) :
    x.eq y = true ↔ x.height = y.height := by
  rw [eq, compareBy, place?_of_zero_le hx, place?_of_zero_le hy, decide_eq_true_eq]
  exact Int.ofNat_inj

theorem isFinite_of_height_le (hx : zero.le x = true) (hy : zero.le y = true)
    (hfinite : y.isFinite = true) (h : x.height ≤ y.height) : x.isFinite = true := by
  rw [isFinite_iff_height_lt hy] at hfinite
  rw [isFinite_iff_height_lt hx]
  exact Nat.lt_of_le_of_lt h hfinite

/-- What is finite and not negative has a sign only if it is zero. -/
theorem exists_finite_of_zero_le (hx : zero.le x = true) (hfinite : x.isFinite = true) :
    ∃ s m, x = finite s m ∧ m.units = x.height ∧ (s = true → x.height = 0) := by
  rcases cases_of_zero_le hx with rfl | ⟨m, rfl⟩ | rfl
  · cases hfinite
  · exact ⟨false, m, rfl, (height_finite m).symm, fun h => Bool.noConfusion h⟩
  · exact ⟨true, .zero, rfl, height_negativeZero.symm, fun _ => height_negativeZero⟩

theorem units?_of_zero_le (hx : zero.le x = true) (hfinite : x.isFinite = true) :
    x.units? = some (x.height : Int) := by
  obtain ⟨s, m, rfl, _, _⟩ := exists_finite_of_zero_le hx hfinite
  exact place?_of_zero_le hx

theorem floorWord_of_zero_le (hx : zero.le x = true) :
    x.floorWord = min maxWord (x.height / unity) :=
  toWord_of_zero_le (by decide +kernel) (by decide +kernel) hx

/-! ## Operations by height -/

/-- No units are a zero, with whichever sign. -/
theorem height_ofQuotient_zero (s : Bool) {den : Nat} (hden : 0 < den) :
    zero.le (ofQuotient s 0 den) = true ∧ (ofQuotient s 0 den).height = 0 := by
  have hzero : ofQuotient s 0 den = finite s .zero :=
    ofQuotient_eq_finite_iff.mpr (roundToGrid_zero hden)
  rw [hzero]
  cases s with
  | false => exact ⟨by decide, by decide⟩
  | true => exact ⟨zero_le_negativeZero, height_negativeZero⟩

/-- **A difference, by height.** -/
theorem height_sub (hx : zero.le x = true) (hy : zero.le y = true) (hfinite : y.isFinite = true)
    (hxy : x.height ≤ y.height) :
    zero.le (y - x) = true ∧ (y - x).height = roundToGrid (y.height - x.height) 1 := by
  have hxfinite := isFinite_of_height_le hx hy hfinite hxy
  obtain ⟨s, hsub, hneg, _⟩ :=
    exists_sub_eq_ofQuotient (units?_of_zero_le hy hfinite) (units?_of_zero_le hx hxfinite)
  have habs : ((y.height : Int) - x.height).natAbs = y.height - x.height := by omega
  have hround : roundToGrid (y.height - x.height) 1 ≤ y.height :=
    roundToGrid_le_of_le_mul Nat.one_pos (onGrid_height hy) (by omega)
  have hceiling := height_le_ceiling hy
  rw [habs] at hsub
  rw [hsub]
  cases s with
  | false =>
    refine ⟨zero_le_ofQuotient _ _, ?_⟩
    rw [height_ofQuotient]
    omega
  | true =>
    have hdiff : y.height - x.height = 0 := by
      have hle := hneg rfl
      omega
    rw [hdiff, roundToGrid_zero Nat.one_pos]
    exact height_ofQuotient_zero true Nat.one_pos

/-- **A product of finite numbers, by height.** -/
theorem height_mul (hx : zero.le x = true) (hxfinite : x.isFinite = true) (hy : zero.le y = true)
    (hyfinite : y.isFinite = true) :
    zero.le (x * y) = true ∧
      (x * y).height = min (roundToGrid (x.height * y.height) unity) ceiling := by
  obtain ⟨s, a, hxeq, ha, hxzero⟩ := exists_finite_of_zero_le hx hxfinite
  obtain ⟨t, b, hyeq, hb, hyzero⟩ := exists_finite_of_zero_le hy hyfinite
  have hmul : x * y = ofQuotient (s != t) (x.height * y.height) unity := by
    rw [← ha, ← hb, hxeq, hyeq]
    rfl
  rw [hmul]
  by_cases hzero : x.height * y.height = 0
  · rw [hzero, roundToGrid_zero unity_pos, Nat.zero_min]
    exact height_ofQuotient_zero _ unity_pos
  · obtain ⟨hx0, hy0⟩ := Nat.mul_ne_zero_iff.mp hzero
    obtain rfl : s = false := Bool.eq_false_iff.mpr fun hs => hx0 (hxzero hs)
    obtain rfl : t = false := Bool.eq_false_iff.mpr fun ht => hy0 (hyzero ht)
    exact ⟨zero_le_ofQuotient _ _, height_ofQuotient _ _⟩

/-! ## Between two heights -/

theorem part_mono {t t' : Nat} (h : t ≤ t') (n : Nat) : part n t ≤ part n t' :=
  roundToGrid_mono unity_pos (Nat.mul_le_mul_left _ h)

/-- **Farther along is not lower.** -/
theorem interpolate_mono {t t' : Nat} (h : t ≤ t') (a b : Nat) :
    interpolate a b t ≤ interpolate a b t' := accumulate_mono (Nat.le_refl a) (part_mono h (b - a))

theorem interpolate_zero {a : Nat} (ha : OnGrid a) (hle : a ≤ ceiling) (b : Nat) : interpolate a b 0 = a := by
  have hpart : part (b - a) 0 = 0 := by rw [part, Nat.mul_zero, roundToGrid_zero unity_pos]
  rw [interpolate, hpart, accumulate_of_onGrid ha hle (Nat.add_zero a)]

/-- **What is computed between two numbers, by height.** -/
theorem height_add_sub_mul (hx : zero.le x = true) (hy : zero.le y = true) (hfinite : y.isFinite = true)
    (hxy : x.height ≤ y.height) (ht : zero.le t = true) (hlt : t.height < unity) :
    zero.le (x + (y - x) * t) = true ∧
      (x + (y - x) * t).height = interpolate x.height y.height t.height := by
  obtain ⟨hsub, hsubHeight⟩ := height_sub hx hy hfinite hxy
  have hround : roundToGrid (y.height - x.height) 1 ≤ y.height :=
    roundToGrid_le_of_le_mul Nat.one_pos (onGrid_height hy) (by omega)
  have hsubFinite : (y - x).isFinite = true :=
    isFinite_of_height_le hsub hy hfinite (by rwa [hsubHeight])
  have htFinite : t.isFinite = true := by
    rw [isFinite_iff_height_lt ht]
    exact Nat.lt_trans hlt (by decide +kernel)
  obtain ⟨hmul, hmulHeight⟩ := height_mul hsub hsubFinite ht htFinite
  have hpart : ((y - x) * t).height = part (y.height - x.height) t.height := by
    have hle := part_le (onGrid_height ht) hlt (y.height - x.height)
    have hceiling := height_le_ceiling hy
    rw [part] at hle ⊢
    rw [hmulHeight, hsubHeight]
    omega
  obtain ⟨hadd, haddHeight⟩ := height_add hx hmul
  rw [hpart] at haddHeight
  exact ⟨hadd, haddHeight⟩

end LatencyLog.Binary64
