import LatencyLog.Proofs.Binary64.Heights
import LatencyLog.Proofs.Binary64.Nearness

/-!
# Between two numbers

What lies between two numbers is computed as `a + (b - a) * t`, which is rounded three times, and the
difference can be rounded up. It is known that this can pass `b`. It does not where `t` is less than 1
(`interpolate_le`), and that is not for room to spare. The greatest such `t` is less by one part in 2^53, and
a product with it takes a number down by a gap (`roundToGrid_mul_lt`), which is what a difference can have
been rounded up by (`part_le`).

Nor is it ever below `a` (`le_interpolate`). It can be either of the two without `t` saying so, where they
are close; it is neither where it is more than half a gap away before its last rounding
(`interpolate_lt`, `lt_interpolate`).
-/

namespace LatencyLog.Binary64

/-! ## A part of a difference -/

theorem onGrid_unity : OnGrid unity := onGrid_shiftLeft 1074 (by decide)

/-- What is less than 1 takes what has gaps of its own a gap down at least. -/
theorem roundToGrid_mul_lt {d t : Nat} (hlarge : 2 ^ 53 < d) (ht : OnGrid t) (hlt : t < unity) :
    roundToGrid (d * t) unity < d := by
  refine roundToGrid_lt_of_part unity_pos hlarge (Nat.mul_lt_mul_of_pos_left hlt (by omega)) ?_
  rw [← Nat.mul_sub, Nat.mul_left_comm]
  exact Nat.mul_le_mul_left d (le_two_pow_mul_sub ht onGrid_unity hlt)

/-- The height of a part of a difference, `t` units of it. -/
def part (n t : Nat) : Nat := roundToGrid (roundToGrid n 1 * t) unity

/-- **What a difference is rounded up by, a factor below 1 takes back.** -/
theorem part_le {t : Nat} (ht : OnGrid t) (hlt : t < unity) (n : Nat) : part n t ≤ n := by
  unfold part
  have hgrid := onGrid_roundToGrid n 1
  rcases Nat.lt_or_ge n (roundToGrid n 1) with hup | hdown
  · -- There is nothing on the grid between the difference and where it was rounded to.
    have hlarge : 2 ^ 53 < roundToGrid n 1 := by
      refine Nat.lt_of_not_le fun hsmall => ?_
      rw [roundToGrid_of_onGrid (onGrid_of_le (by omega))] at hup
      exact Nat.lt_irrefl n hup
    have hback := roundToGrid_mul_lt hlarge ht hlt
    refine Nat.le_of_not_lt fun hpast => ?_
    have hnext : roundToGrid n 1 ≤ roundToGrid (roundToGrid n 1 * t) unity :=
      roundToGrid_le_of_le_mul Nat.one_pos (onGrid_roundToGrid _ _) (by omega)
    exact Nat.not_lt.mpr hnext hback
  · refine Nat.le_trans (roundToGrid_le_of_le_mul unity_pos hgrid ?_) hdown
    exact Nat.mul_le_mul_left _ (Nat.le_of_lt hlt)

/-- Two roundings are two parts in 2^53, and half a unit. -/
theorem two_pow_mul_part_le {t : Nat} (hle : t ≤ unity) (n : Nat) :
    2 ^ 52 * (part n t * unity) ≤ 2 ^ 52 * (n * t) + 2 * (n * unity) + 2 ^ 51 * unity := by
  have hproduct := two_pow_mul_roundToGrid_mul_le (roundToGrid n 1 * t) unity
  have hdifference := Nat.mul_le_mul_right t (two_pow_mul_roundToGrid_le n)
  have hpart := Nat.mul_le_mul_left n hle
  rw [Nat.mul_assoc, Nat.mul_assoc] at hdifference
  rw [part]
  omega

theorem le_two_pow_mul_part {t : Nat} (hle : t ≤ unity) (n : Nat) :
    2 ^ 52 * (n * t) ≤ 2 ^ 52 * (part n t * unity) + 2 * (n * unity) + 2 ^ 51 * unity := by
  have hproduct := le_two_pow_mul_roundToGrid_mul unity_pos (roundToGrid n 1 * t)
  have hdifference := Nat.mul_le_mul_right t (le_two_pow_mul_roundToGrid n)
  have hpart := Nat.mul_le_mul_left n hle
  rw [Nat.mul_assoc, Nat.mul_assoc] at hdifference
  rw [part]
  omega

/-! ## Heights between -/

/-- The height of what is computed between two heights, `t` units along. -/
def interpolate (a b t : Nat) : Nat := accumulate a (part (b - a) t)

section Interpolate

variable {a b t : Nat}

theorem le_interpolate (ha : OnGrid a) (hle : a ≤ ceiling) (b t : Nat) : a ≤ interpolate a b t :=
  le_accumulate ha hle (Nat.le_add_right a _)

/-- **A factor below 1 does not lead past the end.** -/
theorem interpolate_le (hb : OnGrid b) (hle : b ≤ ceiling) (hab : a ≤ b) (ht : OnGrid t)
    (hlt : t < unity) : interpolate a b t ≤ b :=
  calc interpolate a b t ≤ accumulate a (b - a) :=
        accumulate_mono (Nat.le_refl a) (part_le ht hlt (b - a))
    _ = b := accumulate_of_onGrid hb hle (Nat.add_sub_of_le hab)

/-- It leads to what is below the end if half a gap remains. -/
theorem interpolate_lt (h : gap (b - 1) < 2 * (b - a - part (b - a) t)) : interpolate a b t < b := by
  have hround : roundToGrid (a + part (b - a) t) 1 < b := roundToGrid_lt (by omega)
  rw [interpolate, accumulate]
  omega

/-- And from the start if half a gap is taken. -/
theorem lt_interpolate (ha : OnGrid a) (hlt : a < ceiling) (h : gap a < 2 * part (b - a) t) :
    a < interpolate a b t := by
  have hround := lt_roundToGrid ha h
  rw [interpolate, accumulate]
  omega

end Interpolate

/-! ## Numbers between -/

theorem finite_mul_finite_false (a b : Magnitude) :
    finite false a * finite false b = ofQuotient false (a.units * b.units) unity := by
  show mul (finite false a) (finite false b) = _
  rw [mul, bne_self_eq_false]

theorem finite_mul_ofNat (m : Magnitude) (n : Nat) :
    finite false m * ofNat n = ofNat n * finite false m := by
  rw [ofNat, ofQuotient]
  split
  · rw [finite_mul_finite_false, finite_mul_finite_false, Nat.mul_comm]
  · rfl

theorem finite_add_finite_false (a b : Magnitude) :
    finite false a + finite false b = ofQuotient false (a.units + b.units) 1 := by
  rw [finite_add_finite, if_pos rfl]

theorem finite_sub_finite_of_le {a b : Magnitude} (h : a.units ≤ b.units) :
    finite false b - finite false a = ofQuotient false (b.units - a.units) 1 := by
  rw [finite_sub_finite, finite_add_finite, if_neg (by decide)]
  rcases Nat.eq_or_lt_of_le h with heq | hlt
  · rw [if_pos heq.symm, heq, Nat.sub_self]
    decide +kernel
  · rw [if_neg (Nat.ne_of_gt hlt), if_neg (Nat.lt_asymm hlt)]

/-- **What is computed between two numbers is a number between them.** -/
theorem add_sub_mul {a b t : Magnitude} (hab : a.units ≤ b.units) (hlt : t.units < unity) :
    ∃ m : Magnitude,
      finite false a + (finite false b - finite false a) * finite false t = finite false m ∧
        m.units = interpolate a.units b.units t.units := by
  have hbound := interpolate_le b.onGrid (Nat.le_of_lt b.lt_ceiling) hab t.onGrid hlt
  -- Each of the three answers is finite, as none of them is greater than the second number.
  obtain ⟨d, hd, hdunits⟩ : ∃ d : Magnitude,
      ofQuotient false (b.units - a.units) 1 = finite false d ∧
        d.units = roundToGrid (b.units - a.units) 1 := by
    refine exists_ofQuotient_eq_finite (Nat.lt_of_le_of_lt ?_ b.lt_ceiling) false
    exact roundToGrid_le_of_le_mul Nat.one_pos b.onGrid (by omega)
  obtain ⟨x, hx, hxunits⟩ : ∃ x : Magnitude,
      ofQuotient false (d.units * t.units) unity = finite false x ∧
        x.units = part (b.units - a.units) t.units := by
    rw [part, ← hdunits]
    refine exists_ofQuotient_eq_finite (Nat.lt_of_le_of_lt ?_ b.lt_ceiling) false
    rw [hdunits]
    exact Nat.le_trans (part_le t.onGrid hlt _) (Nat.sub_le _ _)
  have hsum : interpolate a.units b.units t.units = min (roundToGrid (a.units + x.units) 1) ceiling := by
    rw [interpolate, accumulate, hxunits]
  have hb := b.lt_ceiling
  obtain ⟨m, hm, hmunits⟩ : ∃ m : Magnitude, ofQuotient false (a.units + x.units) 1 = finite false m ∧
      m.units = roundToGrid (a.units + x.units) 1 := exists_ofQuotient_eq_finite (by omega) false
  refine ⟨m, ?_, by omega⟩
  rw [finite_sub_finite_of_le hab, hd, finite_mul_finite_false, hx, finite_add_finite_false, hm]

/-- Between a number and itself there is the number, or nothing that can be compared. -/
theorem add_sub_mul_self {m : Magnitude} (hm : m.units ≠ 0) (t : Binary64) :
    finite false m + (finite false m - finite false m) * t = finite false m ∨
      (finite false m + (finite false m - finite false m) * t).isNan = true := by
  have hsub : finite false m - finite false m = zero := by
    rw [finite_sub_finite, finite_add_finite, if_neg (by decide), if_pos rfl]
  rw [hsub]
  cases t with
  | nan s f => exact Or.inr rfl
  | infinity s => exact Or.inr rfl
  | finite s u =>
    have hmul : zero * finite s u = finite s .zero := by
      show mul zero (finite s u) = _
      rw [zero, mul, units_zero, Nat.zero_mul, Bool.false_bne, ofQuotient_eq_finite_iff]
      exact roundToGrid_zero unity_pos
    rw [hmul, finite_add_zero hm, ofQuotient_units]
    exact Or.inl rfl

end LatencyLog.Binary64
