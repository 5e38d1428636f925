import LatencyLog.Proofs.Binary64.Rounding
import Mathlib.Tactic.SplitIfs

/-!
# Rounding keeps to its side of the grid

What is rounded does not pass a natural on the grid: it stays at or above what was at or below it
(`le_roundToGrid`), and the other way round (`roundToGrid_le_of_le_mul`). So what is on the grid is not
rounded at all, and rounding is monotone (`roundToGrid_mono`). One case of the first takes a thought. The
gap is that of the exact value, and a natural on the grid far below need not be a multiple of it; but then
a power of two lies between, which is.

The bottom of the grid is a unit, and what is at most half of one is rounded to none
(`roundToGrid_pos_iff`). It is the value of a quotient that is rounded: a common factor makes no difference
(`roundToGrid_mul_left`).
-/

namespace LatencyLog

namespace Quotient

theorem le_nearestEven {num den k : Nat} (hden : 0 < den) (h : k * den ≤ num) :
    k ≤ nearestEven num den :=
  Nat.le_trans ((Nat.le_div_iff_mul_le hden).mpr h) (floor_le_nearestEven num den)

theorem nearestEven_le {num den k : Nat} (hden : 0 < den) (h : num ≤ k * den) :
    nearestEven num den ≤ k := by
  rcases Nat.lt_or_ge num (k * den) with hlt | hge
  · have hfloor : num / den < k := (Nat.div_lt_iff_lt_mul hden).mpr hlt
    exact Nat.le_trans (nearestEven_le_floor_succ num den) hfloor
  · -- The floor is `k` itself here, so its successor is no bound; but there is no remainder.
    obtain rfl : num = k * den := Nat.le_antisymm h hge
    refine Nat.le_of_eq ?_
    rw [nearestEven_of_dvd hden (Nat.dvd_mul_left den k), Nat.mul_div_cancel k hden]

theorem nearestEven_mono {num num' den : Nat} (h : num ≤ num') :
    nearestEven num den ≤ nearestEven num' den := by
  rcases Nat.lt_or_ge (num / den) (num' / den) with hlt | hge
  · calc nearestEven num den ≤ num / den + 1 := nearestEven_le_floor_succ num den
      _ ≤ num' / den := hlt
      _ ≤ nearestEven num' den := floor_le_nearestEven num' den
  · have hfloor : num / den = num' / den := Nat.le_antisymm (Nat.div_le_div_right h) hge
    have hrest : num % den ≤ num' % den := by
      have hnum := Nat.div_add_mod num den
      have hnum' := Nat.div_add_mod num' den
      rw [hfloor] at hnum
      omega
    unfold nearestEven
    rw [hfloor]
    split_ifs <;> omega

theorem nearestEven_mul_left {k : Nat} (hk : 0 < k) (num den : Nat) :
    nearestEven (k * num) (k * den) = nearestEven num den := by
  have hmod : 2 * (k * num % (k * den)) = k * (2 * (num % den)) := by
    rw [Nat.mul_mod_mul_left, Nat.mul_left_comm]
  simp only [nearestEven, hmod, Nat.mul_div_mul_left num den hk, Nat.mul_lt_mul_left hk]

end Quotient

namespace Binary64

/-! ## Gaps -/

theorem gap_dvd_gap {m n : Nat} (h : m ≤ n) : gap m ∣ gap n := by
  rw [gap, gap, Nat.one_shiftLeft, Nat.one_shiftLeft]
  exact Nat.pow_dvd_pow 2 (Nat.sub_le_sub_right (log2_mono h) 52)

theorem gap_eq_of_two_pow_le {m n : Nat} (h : m ≤ n) (hbits : 2 ^ n.log2 ≤ m) : gap m = gap n := by
  have hm : m ≠ 0 := Nat.ne_of_gt (Nat.lt_of_lt_of_le (Nat.two_pow_pos _) hbits)
  have hlog : m.log2 = n.log2 := by
    rw [Nat.log2_eq_iff hm]
    exact ⟨hbits, Nat.lt_of_le_of_lt h Nat.lt_log2_self⟩
  rw [gap, gap, hlog]

theorem gap_dvd_two_pow_log2 {n : Nat} : gap n ∣ 2 ^ n.log2 := by
  rw [gap, Nat.one_shiftLeft]
  exact Nat.pow_dvd_pow 2 (Nat.sub_le _ _)

theorem onGrid_zero : OnGrid 0 := Nat.dvd_zero _

theorem onGrid_of_le {n : Nat} (h : n ≤ 2 ^ 53) : OnGrid n := by
  rw [← Nat.one_shiftLeft] at h
  exact onGrid_shiftLeft 0 h

theorem onGrid_two_pow (k : Nat) : OnGrid (2 ^ k) := by
  rw [← Nat.one_shiftLeft]
  exact onGrid_shiftLeft k (by decide)

theorem onGrid_ceiling : OnGrid ceiling := onGrid_shiftLeft 2098 (by decide)

theorem onGrid_mul_unity {n : Nat} (h : n ≤ 2 ^ 53) : OnGrid (n * unity) := by
  rw [← Nat.one_shiftLeft] at h
  have hshift : ∀ k, n * 1 <<< k = n <<< k := by
    intro k
    rw [Nat.one_shiftLeft, Nat.shiftLeft_eq]
  rw [unity, hshift]
  exact onGrid_shiftLeft 1074 h

/-- From a natural on the grid to one above it there is a multiple of the gap of the second. -/
theorem exists_multiple_between {g n : Nat} (hg : OnGrid g) (h : g ≤ n) :
    ∃ k, g ≤ k * gap n ∧ k * gap n ≤ n := by
  rcases Nat.eq_zero_or_pos n with rfl | hn
  · exact ⟨0, by omega, by omega⟩
  rcases Nat.lt_or_ge g (2 ^ n.log2) with hlt | hge
  · refine ⟨2 ^ n.log2 / gap n, ?_⟩
    rw [Nat.div_mul_cancel gap_dvd_two_pow_log2]
    exact ⟨Nat.le_of_lt hlt, Nat.log2_self_le (Nat.ne_of_gt hn)⟩
  · have hdvd : gap n ∣ g := gap_eq_of_two_pow_le h hge ▸ hg
    refine ⟨g / gap n, ?_⟩
    rw [Nat.div_mul_cancel hdvd]
    exact ⟨Nat.le_refl g, h⟩

/-! ## The two sides -/

/-- **What is at or above the grid stays there.** -/
theorem le_roundToGrid {g num den : Nat} (hden : 0 < den) (hg : OnGrid g) (h : g * den ≤ num) :
    g ≤ roundToGrid num den := by
  obtain ⟨k, hk, hle⟩ := exists_multiple_between hg ((Nat.le_div_iff_mul_le hden).mpr h)
  rw [Nat.le_div_iff_mul_le hden] at hle
  rw [roundToGrid]
  refine Nat.le_trans hk (Nat.mul_le_mul_right _ ?_)
  refine Quotient.le_nearestEven (Nat.mul_pos hden (gap_pos _)) ?_
  rwa [Nat.mul_comm den, ← Nat.mul_assoc]

/-- **What is at or below the grid stays there.** -/
theorem roundToGrid_le_of_le_mul {g num den : Nat} (hden : 0 < den) (hg : OnGrid g)
    (h : num ≤ g * den) : roundToGrid num den ≤ g := by
  have hfloor : num / den ≤ g := by
    calc num / den ≤ g * den / den := Nat.div_le_div_right h
      _ = g := Nat.mul_div_cancel g hden
  -- No case distinction on this side: a gap below is a divisor of every gap above it.
  have hdvd : gap (num / den) ∣ g := Nat.dvd_trans (gap_dvd_gap hfloor) hg
  have hexact : g / gap (num / den) * (den * gap (num / den)) = g * den := by
    rw [Nat.mul_comm den, ← Nat.mul_assoc, Nat.div_mul_cancel hdvd]
  have hround : Quotient.nearestEven num (den * gap (num / den)) ≤ g / gap (num / den) :=
    Quotient.nearestEven_le (Nat.mul_pos hden (gap_pos _)) (by rwa [hexact])
  calc roundToGrid num den ≤ g / gap (num / den) * gap (num / den) := Nat.mul_le_mul_right _ hround
    _ = g := Nat.div_mul_cancel hdvd

theorem roundToGrid_of_onGrid {n : Nat} (h : OnGrid n) : roundToGrid n 1 = n :=
  Nat.le_antisymm (roundToGrid_le_of_le_mul Nat.one_pos h (by omega))
    (le_roundToGrid Nat.one_pos h (by omega))

theorem roundToGrid_zero {den : Nat} (hden : 0 < den) : roundToGrid 0 den = 0 :=
  Nat.le_zero.mp (roundToGrid_le_of_le_mul hden onGrid_zero (Nat.zero_le _))

/-- **A greater quotient is not rounded to a smaller natural.** -/
theorem roundToGrid_mono {m n den : Nat} (hden : 0 < den) (h : m ≤ n) :
    roundToGrid m den ≤ roundToGrid n den := by
  have hfloor : m / den ≤ n / den := Nat.div_le_div_right h
  rcases Nat.lt_or_ge (m / den) (2 ^ (n / den).log2) with hlt | hge
  · -- A power of two lies between.
    have hpow := onGrid_two_pow (n / den).log2
    have hle : roundToGrid m den ≤ 2 ^ (n / den).log2 :=
      roundToGrid_le_of_le_mul hden hpow (Nat.le_of_lt ((Nat.div_lt_iff_lt_mul hden).mp hlt))
    rcases Nat.eq_zero_or_pos (n / den) with hzero | hpos
    · rw [hzero] at hfloor
      rw [roundToGrid, roundToGrid, hzero, Nat.le_zero.mp hfloor]
      exact Nat.mul_le_mul_right _ (Quotient.nearestEven_mono h)
    · refine Nat.le_trans hle (le_roundToGrid hden hpow ?_)
      exact (Nat.le_div_iff_mul_le hden).mp (Nat.log2_self_le (Nat.ne_of_gt hpos))
  · rw [roundToGrid, roundToGrid, gap_eq_of_two_pow_le hfloor hge]
    exact Nat.mul_le_mul_right _ (Quotient.nearestEven_mono h)

/-! ## The bottom -/

/-- **What is more than half a unit is a unit at least, and what is not is none.** -/
theorem roundToGrid_pos_iff {num den : Nat} (hden : 0 < den) :
    0 < roundToGrid num den ↔ den < 2 * num := by
  rcases Nat.lt_or_ge num den with hlt | hge
  · have hfloor : num / den = 0 := Nat.div_eq_of_lt hlt
    have hgap : gap 0 = 1 := rfl
    rw [roundToGrid, hfloor, hgap, Nat.mul_one, Nat.mul_one, Quotient.nearestEven, hfloor,
      Nat.mod_eq_of_lt hlt]
    split
    · omega
    · split <;> omega
  · have hone : 1 ≤ roundToGrid num den :=
      le_roundToGrid hden (onGrid_of_le (by decide)) (by omega)
    omega

/-! ## Common factors -/

theorem roundToGrid_mul_left {k : Nat} (hk : 0 < k) (num den : Nat) :
    roundToGrid (k * num) (k * den) = roundToGrid num den := by
  rw [roundToGrid, roundToGrid, Nat.mul_div_mul_left num den hk, Nat.mul_assoc,
    Quotient.nearestEven_mul_left hk]

/-- **Only the value of a quotient is rounded.** -/
theorem ofQuotient_mul_left {k : Nat} (hk : 0 < k) (s : Bool) (num den : Nat) :
    ofQuotient s (k * num) (k * den) = ofQuotient s num den := by
  simp only [ofQuotient, roundToGrid_mul_left hk]

/-! ## Finite answers -/

theorem exists_ofQuotient_eq_finite {num den : Nat} (h : roundToGrid num den < ceiling) (s : Bool) :
    ∃ m : Magnitude, ofQuotient s num den = .finite s m ∧ m.units = roundToGrid num den :=
  ⟨⟨roundToGrid num den, onGrid_roundToGrid num den, h⟩, dif_pos h, rfl⟩

theorem ofQuotient_eq_finite_iff {s : Bool} {num den : Nat} {m : Magnitude} :
    ofQuotient s num den = .finite s m ↔ roundToGrid num den = m.units := by
  unfold ofQuotient
  split
  · rw [finite.injEq, Magnitude.ext_iff, and_iff_right rfl]
  · rename_i hlarge
    refine iff_of_false (fun h => by cases h) fun h => ?_
    exact hlarge (h ▸ m.lt_ceiling)

end Binary64

end LatencyLog
