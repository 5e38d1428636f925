import LatencyLog.Proofs.Binary64.Grid

/-!
# How near rounding comes

Within half a gap, on either side (`roundToGrid_mul_le_add_half`, `mul_le_roundToGrid_mul_add_half`); the
gap is that of the exact value, cut off. It is no more than one part in 2^52 of that value, or a unit, and
a natural is only rounded where the gap is more than a unit. So *rounding a natural is off by one part in
2^53 at most* (`two_pow_mul_roundToGrid_le`, `le_two_pow_mul_roundToGrid`), and rounding a product with a
factor in units by half a unit more.

Half a gap is also how far a natural on the grid has to be passed for the rounding to leave it: downwards
the gap of the natural below (`roundToGrid_lt`), upwards its own (`lt_roundToGrid`). At a power of two the
first is half of the second. So a quotient of naturals on the grid keeps below a bound that it is below,
though the bound may be the next natural on the grid (`roundToGrid_lt_of_onGrid`).
-/

namespace LatencyLog

/-! ## Quotients -/

namespace Quotient

theorem two_mul_nearestEven_mul_le (num den : Nat) :
    2 * (nearestEven num den * den) ≤ 2 * num + den := by
  have hdiv := Nat.div_add_mod' num den
  unfold nearestEven
  split
  · omega
  · split
    · rw [Nat.add_mul]
      omega
    · -- A tie goes up or stays, and both are half a step.
      rcases Nat.mod_two_eq_zero_or_one (num / den) with heven | hodd
      · rw [heven, Nat.add_zero]
        omega
      · rw [hodd, Nat.add_mul]
        omega

theorem two_mul_le_nearestEven_mul {den : Nat} (hden : 0 < den) (num : Nat) :
    2 * num ≤ 2 * (nearestEven num den * den) + den := by
  have hdiv := Nat.div_add_mod' num den
  have hmod := Nat.mod_lt num hden
  unfold nearestEven
  split
  · omega
  · split
    · rw [Nat.add_mul]
      omega
    · have htie : 2 * (num / den * den) ≤ 2 * ((num / den + num / den % 2) * den) :=
        Nat.mul_le_mul_left 2 (Nat.mul_le_mul_right den (Nat.le_add_right _ _))
      omega

end Quotient

namespace Binary64

/-! ## Half a gap -/

theorem roundToGrid_mul_le_add_half (num den : Nat) :
    2 * (roundToGrid num den * den) ≤ 2 * num + gap (num / den) * den := by
  have hround := Quotient.two_mul_nearestEven_mul_le num (den * gap (num / den))
  rwa [roundToGrid, Nat.mul_right_comm, Nat.mul_assoc, Nat.mul_comm _ den]

theorem mul_le_roundToGrid_mul_add_half {den : Nat} (hden : 0 < den) (num : Nat) :
    2 * num ≤ 2 * (roundToGrid num den * den) + gap (num / den) * den := by
  have hround := Quotient.two_mul_le_nearestEven_mul (Nat.mul_pos hden (gap_pos (num / den))) num
  rwa [roundToGrid, Nat.mul_right_comm, Nat.mul_assoc, Nat.mul_comm _ den]

theorem two_mul_roundToGrid_le (n : Nat) : 2 * roundToGrid n 1 ≤ 2 * n + gap n := by
  have hround := roundToGrid_mul_le_add_half n 1
  rwa [Nat.div_one, Nat.mul_one, Nat.mul_one] at hround

theorem two_mul_le_roundToGrid (n : Nat) : 2 * n ≤ 2 * roundToGrid n 1 + gap n := by
  have hround := mul_le_roundToGrid_mul_add_half Nat.one_pos n
  rwa [Nat.div_one, Nat.mul_one, Nat.mul_one] at hround

/-! ## Neighbours -/

theorem gap_le_gap {m n : Nat} (h : m ≤ n) : gap m ≤ gap n :=
  Nat.le_of_dvd (gap_pos n) (gap_dvd_gap h)

/-- Two naturals on the grid are apart by the gap just below the upper one. -/
theorem add_gap_pred_le {m n : Nat} (hm : OnGrid m) (hn : OnGrid n) (h : m < n) :
    m + gap (n - 1) ≤ n := by
  obtain ⟨k, hmk, hkn⟩ := exists_multiple_between hm (Nat.le_sub_one_of_lt h)
  have hdvd : gap (n - 1) ∣ n - k * gap (n - 1) :=
    Nat.dvd_sub (Nat.dvd_trans (gap_dvd_gap (Nat.sub_le n 1)) hn) (Nat.dvd_mul_left _ k)
  have hle := Nat.le_of_dvd (by omega) hdvd
  omega

/-- So they are by the gap of the lower one, which is no greater. -/
theorem add_gap_le {m n : Nat} (hm : OnGrid m) (hn : OnGrid n) (h : m < n) : m + gap m ≤ n := by
  have hgap := gap_le_gap (Nat.le_sub_one_of_lt h)
  have hnext := add_gap_pred_le hm hn h
  omega

/-- What is below a natural on the grid is below it by one part in 2^53. -/
theorem le_two_pow_mul_sub {m n : Nat} (hm : OnGrid m) (hn : OnGrid n) (h : m < n) :
    n ≤ 2 ^ 53 * (n - m) := by
  have hbits := div_gap_lt (n - 1)
  rw [Nat.div_lt_iff_lt_mul (gap_pos _), Nat.one_shiftLeft] at hbits
  have hnext := add_gap_pred_le hm hn h
  omega

theorem onGrid_add_gap {m : Nat} (hm : OnGrid m) : OnGrid (m + gap m) := by
  have hnext := onGrid_shiftLeft (m.log2 - 52) (Nat.succ_le_of_lt (div_gap_lt m))
  rw [Nat.shiftLeft_eq, ← Nat.one_shiftLeft] at hnext
  change OnGrid ((m / gap m + 1) * gap m) at hnext
  rwa [Nat.add_mul, Nat.one_mul, Nat.div_mul_cancel hm] at hnext

/-- Up to its upper neighbour a natural on the grid has its gap to share. -/
theorem gap_add {m r : Nat} (hm : OnGrid m) (hr : r < gap m) : gap (m + r) = gap m := by
  rcases Nat.eq_zero_or_pos (m + r) with hzero | hpos
  · rw [hzero, (Nat.add_eq_zero_iff.mp hzero).1]
  · refine (gap_eq_of_two_pow_le (Nat.le_add_right m r) (Nat.le_of_not_lt fun hlt => ?_)).symm
    have hnext := add_gap_le hm (onGrid_two_pow (m + r).log2) hlt
    have hpow := Nat.log2_self_le (Nat.ne_of_gt hpos)
    omega

theorem roundToGrid_lt {n g : Nat} (h : 2 * n + gap (g - 1) < 2 * g) : roundToGrid n 1 < g := by
  have hgap : gap n ≤ gap (g - 1) := gap_le_gap (by omega)
  have hround := two_mul_roundToGrid_le n
  omega

theorem lt_roundToGrid {g r : Nat} (hg : OnGrid g) (h : gap g < 2 * r) : g < roundToGrid (g + r) 1 := by
  rcases Nat.lt_or_ge r (gap g) with hlt | hge
  · have hround := two_mul_le_roundToGrid (g + r)
    rw [gap_add hg hlt] at hround
    omega
  · -- The upper neighbour is passed.
    have hnext : g + gap g ≤ roundToGrid (g + r) 1 :=
      le_roundToGrid Nat.one_pos (onGrid_add_gap hg) (by omega)
    have hpos := gap_pos g
    omega

/-! ## Quotients below a bound -/

/-- A quotient that falls short by one part in 2^53 is not rounded up to what it falls short of. Half a gap is
less than that, unless the gap is a unit. -/
theorem roundToGrid_lt_of_part {num den g : Nat} (hden : 0 < den) (hlarge : 2 ^ 53 < g)
    (h : num < g * den) (hpart : g * den ≤ 2 ^ 53 * (g * den - num)) : roundToGrid num den < g := by
  refine Nat.lt_of_not_le fun hup => ?_
  have hhalf := roundToGrid_mul_le_add_half num den
  have hmul := Nat.mul_le_mul_right den hup
  have hfloor : num / den < g := (Nat.div_lt_iff_lt_mul hden).mpr h
  have hfar : g ≤ 2 ^ 52 * gap (num / den) := by
    refine Nat.le_of_mul_le_mul_right ?_ hden
    rw [Nat.mul_assoc]
    omega
  rcases Nat.le_total (2 ^ 52) (num / den) with hge | hlow
  · have hgap := two_pow_mul_gap_le hge
    omega
  · have hgap := gap_mul_le (num / den)
    omega

/-- **A quotient that is below a bound stays below it**, if what is divided and what would have to be divided to
reach the bound are both on the grid. -/
theorem roundToGrid_lt_of_onGrid {n den g : Nat} (hden : 0 < den) (hlarge : 2 ^ 53 < g) (hn : OnGrid n)
    (hg : OnGrid (g * den)) (h : n < g * den) : roundToGrid n den < g :=
  roundToGrid_lt_of_part hden hlarge h (le_two_pow_mul_sub hn hg h)

/-! ## Parts of what is rounded -/

/-- **A natural grows by one part in 2^53 at most.** -/
theorem two_pow_mul_roundToGrid_le (n : Nat) : 2 ^ 53 * roundToGrid n 1 ≤ (2 ^ 53 + 1) * n := by
  rcases Nat.le_total n (2 ^ 52) with hle | hge
  · rw [roundToGrid_of_onGrid (onGrid_of_le (by omega))]
    omega
  · have hround := two_mul_roundToGrid_le n
    have hgap := two_pow_mul_gap_le hge
    omega

/-- **And it shrinks by no more.** -/
theorem le_two_pow_mul_roundToGrid (n : Nat) : (2 ^ 53 - 1) * n ≤ 2 ^ 53 * roundToGrid n 1 := by
  rcases Nat.le_total n (2 ^ 52) with hle | hge
  · rw [roundToGrid_of_onGrid (onGrid_of_le (by omega))]
    omega
  · have hround := two_mul_le_roundToGrid n
    have hgap := two_pow_mul_gap_le hge
    omega

/-- Of a quotient it is the part of the quotient, and half a unit. -/
theorem gap_div_mul_le (num den : Nat) :
    2 ^ 52 * (gap (num / den) * den) ≤ num + 2 ^ 52 * den :=
  calc 2 ^ 52 * (gap (num / den) * den) = gap (num / den) * 2 ^ 52 * den := by
        rw [← Nat.mul_assoc, Nat.mul_comm (2 ^ 52)]
    _ ≤ (num / den + 2 ^ 52) * den := Nat.mul_le_mul_right den (gap_mul_le _)
    _ = num / den * den + 2 ^ 52 * den := Nat.add_mul _ _ _
    _ ≤ num + 2 ^ 52 * den := Nat.add_le_add_right (Nat.div_mul_le_self num den) _

theorem two_pow_mul_roundToGrid_mul_le (num den : Nat) :
    2 ^ 53 * (roundToGrid num den * den) ≤ (2 ^ 53 + 1) * num + 2 ^ 52 * den := by
  have hround := roundToGrid_mul_le_add_half num den
  have hgap := gap_div_mul_le num den
  omega

theorem le_two_pow_mul_roundToGrid_mul {den : Nat} (hden : 0 < den) (num : Nat) :
    (2 ^ 53 - 1) * num ≤ 2 ^ 53 * (roundToGrid num den * den) + 2 ^ 52 * den := by
  have hround := mul_le_roundToGrid_mul_add_half hden num
  have hgap := gap_div_mul_le num den
  omega

end Binary64

end LatencyLog
