import LatencyLog.Binary64.Arithmetic
import Mathlib.Algebra.Group.Nat.Defs

/-!
# How far rounding goes

Down, not to zero: a unit is on the grid, so what is some units is not rounded to none
(`roundToGrid_pos`).

Up, by one gap at most (`roundToGrid_le`); and a gap is a unit, or no more than one part in 2^52 of what
is rounded (`gap_mul_le`). Both together are a bound without gaps, `roundToGrid_mul_le`, in which the unit
and the part are added. It is all that is needed where a number is only to be kept away from a bound: a
product with a factor that is smaller than 1 by more than two roundings can make up for stays, as a whole
number, within what was multiplied (`floorWord_ofNat_mul_le`). There is no limit to what was multiplied;
it need not be exact as a binary64 number, or finite.
-/

namespace LatencyLog.Binary64

/-! ## Powers of two -/

theorem log2_mono {m n : Nat} (h : m ≤ n) : m.log2 ≤ n.log2 := by
  rcases Nat.eq_zero_or_pos m with rfl | hm
  · rw [Nat.log2_zero]
    exact Nat.zero_le _
  · rw [Nat.le_log2 (by omega)]
    exact Nat.le_trans (Nat.log2_self_le (by omega)) h

/-- What is `k` places below the power of two in a natural is as small a part of the natural. -/
theorem two_pow_mul_shift_le {k n : Nat} (h : 2 ^ k ≤ n) : 2 ^ k * 1 <<< (n.log2 - k) ≤ n := by
  have hn : n ≠ 0 := Nat.ne_of_gt (Nat.lt_of_lt_of_le (Nat.two_pow_pos k) h)
  calc 2 ^ k * 1 <<< (n.log2 - k) = 2 ^ n.log2 := by
        rw [Nat.one_shiftLeft, ← Nat.pow_add, Nat.add_sub_cancel' ((Nat.le_log2 hn).mpr h)]
    _ ≤ n := Nat.log2_self_le hn

/-! ## Down -/

theorem gap_le {n : Nat} (h : 0 < n) : gap n ≤ n := by
  rw [gap, Nat.one_shiftLeft]
  calc 2 ^ (n.log2 - 52) ≤ 2 ^ n.log2 := Nat.pow_le_pow_right (by decide) (Nat.sub_le _ _)
    _ ≤ n := Nat.log2_self_le (Nat.ne_of_gt h)

theorem roundToGrid_pos {n : Nat} (h : 0 < n) : 0 < roundToGrid n 1 := by
  rw [roundToGrid, Nat.div_one, Nat.one_mul]
  have hfloor : 0 < n / gap n := Nat.div_pos (gap_le h) (gap_pos n)
  have hround := Quotient.floor_le_nearestEven n (gap n)
  exact Nat.mul_pos (Nat.lt_of_lt_of_le hfloor hround) (gap_pos n)

/-! ## Up -/

theorem two_pow_mul_gap_le {n : Nat} (h : 2 ^ 52 ≤ n) : 2 ^ 52 * gap n ≤ n := two_pow_mul_shift_le h

theorem gap_mul_le (n : Nat) : gap n * 2 ^ 52 ≤ n + 2 ^ 52 := by
  rcases Nat.lt_or_ge n (2 ^ 52) with hlt | hge
  · have hlog : n.log2 ≤ 52 := log2_mono (Nat.le_of_lt hlt)
    rw [gap, Nat.sub_eq_zero_of_le hlog, Nat.shiftLeft_zero, Nat.one_mul]
    exact Nat.le_add_left _ _
  · rw [Nat.mul_comm]
    exact Nat.le_trans (two_pow_mul_gap_le hge) (Nat.le_add_right _ _)

theorem roundToGrid_le (num den : Nat) : roundToGrid num den ≤ num / den + gap (num / den) := by
  have hround := Quotient.nearestEven_le_floor_succ num (den * gap (num / den))
  rw [← Nat.div_div_eq_div_mul] at hround
  calc roundToGrid num den ≤ (num / den / gap (num / den) + 1) * gap (num / den) :=
        Nat.mul_le_mul_right _ hround
    _ = num / den / gap (num / den) * gap (num / den) + gap (num / den) := by
        rw [Nat.add_mul, Nat.one_mul]
    _ ≤ num / den + gap (num / den) := Nat.add_le_add_right (Nat.div_mul_le_self _ _) _

theorem roundToGrid_mul_le (num den : Nat) :
    roundToGrid num den * 2 ^ 52 ≤ (num / den) * (2 ^ 52 + 1) + 2 ^ 52 :=
  calc roundToGrid num den * 2 ^ 52 ≤ (num / den + gap (num / den)) * 2 ^ 52 :=
        Nat.mul_le_mul_right _ (roundToGrid_le num den)
    _ = num / den * 2 ^ 52 + gap (num / den) * 2 ^ 52 := Nat.add_mul _ _ _
    _ ≤ num / den * 2 ^ 52 + (num / den + 2 ^ 52) := Nat.add_le_add_left (gap_mul_le _) _
    _ = num / den * (2 ^ 52 + 1) + 2 ^ 52 := by omega

/-! ## Products with a factor below 1 -/

/-- Where numbers become infinite there are far more of them than words. -/
theorem maxWord_le_of_ceiling_lt {n : Nat} (h : ceiling < 20000 * ((n + 1) * unity)) :
    maxWord ≤ n := by
  have hceiling : 20000 * (maxWord * unity) < ceiling := by decide +kernel
  have hlt : maxWord * unity < (n + 1) * unity := by omega
  exact Nat.le_of_lt_succ (Nat.lt_of_mul_lt_mul_right hlt)

theorem floorWord_ofQuotient_le {num den n : Nat} (h : roundToGrid num den < (n + 1) * unity)
    (s : Bool) : (ofQuotient s num den).floorWord ≤ n := by
  have hunity : 0 < unity := by decide +kernel
  unfold ofQuotient
  split
  · rw [floorWord, toWord]
    split
    · exact Nat.zero_le n
    · refine Nat.le_trans (Nat.min_le_right _ _) (Nat.le_of_lt_succ ?_)
      exact (Nat.div_lt_iff_lt_mul hunity).mpr h
  · rw [floorWord, toWord]
    split
    · exact Nat.zero_le n
    · apply maxWord_le_of_ceiling_lt
      omega

/-- A whole number times what is at most `d` parts in 10000 stays, cut off, below a bound that leaves room
for its roundings. -/
theorem floorWord_ofNat_mul_le_of_lt {n k : Nat} (d : Nat) (hd : d ≤ 10000)
    (hk : (d + 1) * n < 10000 * (k + 1)) {m : Magnitude} (hm : 10000 * m.units ≤ d * unity) :
    (ofNat n * finite false m).floorWord ≤ k := by
  have hunity : 40000 ≤ unity := by decide +kernel
  have hcount := roundToGrid_mul_le (n * unity) 1
  rw [Nat.div_one] at hcount
  generalize hrounded : roundToGrid (n * unity) 1 = rounded at hcount
  have hbound : d * (n * unity) + n * unity + unity ≤ 10000 * ((k + 1) * unity) := by
    have hmul := Nat.mul_le_mul_right unity (Nat.succ_le_of_lt hk)
    rwa [Nat.succ_mul, Nat.mul_assoc, Nat.mul_assoc, Nat.succ_mul] at hmul
  rw [ofNat, ofQuotient]
  split
  · -- Two roundings, and the product in between takes off more than both add.
    show (ofQuotient false (roundToGrid (n * unity) 1 * m.units) unity).floorWord ≤ k
    apply floorWord_ofQuotient_le
    rw [hrounded]
    have hproduct : 10000 * (rounded * m.units / unity) ≤ d * rounded := by
      have hexact : rounded * m.units / unity * unity ≤ rounded * m.units := Nat.div_mul_le_self _ _
      have hfactor := Nat.mul_le_mul_left rounded hm
      refine Nat.le_of_mul_le_mul_right ?_ (Nat.lt_of_lt_of_le (by decide) hunity)
      calc 10000 * (rounded * m.units / unity) * unity
          = 10000 * (rounded * m.units / unity * unity) := Nat.mul_assoc _ _ _
        _ ≤ 10000 * (rounded * m.units) := Nat.mul_le_mul_left 10000 hexact
        _ = rounded * (10000 * m.units) := Nat.mul_left_comm _ _ _
        _ ≤ rounded * (d * unity) := hfactor
        _ = d * rounded * unity := by rw [Nat.mul_left_comm, Nat.mul_assoc]
    have hround := roundToGrid_mul_le (rounded * m.units) unity
    have hscaled := Nat.mul_le_mul_left d hcount
    have hpart := Nat.mul_le_mul_right (n * unity) hd
    rw [Nat.mul_add, ← Nat.mul_assoc, ← Nat.mul_assoc] at hscaled
    omega
  · rename_i hlarge
    rw [hrounded] at hlarge
    show (if m.units = 0 then nan false else infinity false).floorWord ≤ k
    split
    · exact Nat.zero_le k
    · apply maxWord_le_of_ceiling_lt
      omega

/-- **A number of things times what is at most 0.995 is, cut off, no more than there are.** -/
theorem floorWord_ofNat_mul_le (n : Nat) {m : Magnitude} (hm : 1000 * m.units ≤ 995 * unity) :
    (ofNat n * finite false m).floorWord ≤ n :=
  floorWord_ofNat_mul_le_of_lt 9950 (by decide) (by omega) (by omega)

end LatencyLog.Binary64
