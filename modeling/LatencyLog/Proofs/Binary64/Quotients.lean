import LatencyLog.Proofs.Binary64.Nearness
import LatencyLog.Proofs.Binary64.WholeNumbers

/-!
# Quotients of whole numbers

Where integers are divided by one number, nearly all of the quotients are rounded. Still no two of them are
rounded to one number: up to 2^51 in magnitude, *the quotients are in the order of the integers*
(`Whole.div_lt_div`). From one integer to the next the exact quotient makes a step that is the same
everywhere, and rounding moves it by half a gap at most. A gap is one part in 2^52 of the quotient, which up
to 2^51 is half a step, or else it is a unit, and no divisor is so great that a step would be less than two
of these (`roundToGrid_mul_lt_mul`). Where the quotients are makes no difference: a power of two may lie
between them, or they may be at the bottom of the grid.

What does end it is the ceiling. Of two quotients that are both infinite on one side nothing is left to tell
them apart, so one of the two has to be finite.
-/

namespace LatencyLog.Binary64

open Record (valueKey)

/-! ## Steps -/

/-- **Multiples of a step stay apart when they are divided**, as long as the divisor is less than half of the
step. -/
theorem roundToGrid_mul_lt_mul {a b den step : Nat} (hden : 0 < den) (hstep : 2 * den < step) (hab : a < b)
    (hb : b ≤ 2 ^ 51) : roundToGrid (a * step) den < roundToGrid (b * step) den := by
  have hnext : a * step + step ≤ b * step := by
    rw [← Nat.succ_mul]
    exact Nat.mul_le_mul_right step hab
  have hfloor : a * step / den ≤ b * step / den :=
    Nat.div_le_div_right (Nat.mul_le_mul_right step (Nat.le_of_lt hab))
  have hgaps := Nat.mul_le_mul_right den (gap_le_gap hfloor)
  have hgap : gap (b * step / den) * den < step := by
    have hpart := gap_div_mul_le (b * step) den
    have hbound := Nat.mul_le_mul_right step hb
    omega
  have hbelow := roundToGrid_mul_le_add_half (a * step) den
  have habove := mul_le_roundToGrid_mul_add_half hden (b * step)
  have hlt : roundToGrid (a * step) den * den < roundToGrid (b * step) den * den := by omega
  exact Nat.lt_of_mul_lt_mul_right hlt

/-- The step is one divided by a unit, and that is more than twice any divisor. -/
theorem two_mul_units_lt (m : Magnitude) : 2 * m.units < unity * unity := by
  have hceiling : 2 * ceiling < unity * unity := by decide +kernel
  have hlt := m.lt_ceiling
  omega

/-! ## Quotients by their distance from zero -/

/-- How far a whole number divided by a magnitude is from zero. -/
def quotientHeight (m : Magnitude) (k : Nat) : Nat :=
  min (roundToGrid (k * (unity * unity)) m.units) ceiling

section

variable {m : Magnitude} {j k : Nat}

theorem quotientHeight_zero (hm : 0 < m.units) : quotientHeight m 0 = 0 := by
  rw [quotientHeight, Nat.zero_mul, roundToGrid_zero hm, Nat.zero_min]

/-- **Distances are in order**, unless both are cut off at the ceiling. -/
theorem quotientHeight_lt (hm : 0 < m.units) (hjk : j < k) (hk : k ≤ 2 ^ 51)
    (hfinite : quotientHeight m j < ceiling ∨ quotientHeight m k < ceiling) :
    quotientHeight m j < quotientHeight m k := by
  have hround := roundToGrid_mul_lt_mul hm (two_mul_units_lt m) hjk hk
  unfold quotientHeight at *
  omega

theorem quotientHeight_pos (hm : 0 < m.units) (hk : 0 < k) (hle : k ≤ 2 ^ 51) : 0 < quotientHeight m k := by
  have hzero := quotientHeight_zero hm
  have hlt := quotientHeight_lt hm hk hle (Or.inl (by rw [hzero]; exact ceiling_pos))
  rwa [hzero] at hlt

end

/-! ## Quotients by their place -/

variable {x y : Binary64} {m : Magnitude} {n n' : Int}

theorem exists_div_eq_ofQuotient (h : x.Whole n) (hm : 0 < m.units) :
    ∃ s, x / finite false m = ofQuotient s (n.natAbs * (unity * unity)) m.units ∧
      (s = true → n ≤ 0) ∧ (s = false → 0 ≤ n) := by
  obtain ⟨s, a, rfl, hunits, hsigned⟩ := exists_finite_of_units? h
  refine ⟨s, ?_, ?_, ?_⟩
  · rw [finite_div_finite _ _ _ _ (Nat.ne_of_gt hm), hunits, natAbs_mul_unity, Nat.mul_assoc, Bool.bne_false]
  · rintro rfl
    refine Int.le_of_mul_le_mul_right ?_ unity_cast_pos
    rw [hsigned, if_pos rfl]
    omega
  · rintro rfl
    refine Int.le_of_mul_le_mul_right ?_ unity_cast_pos
    rw [hsigned, if_neg Bool.false_ne_true]
    omega

/-- **Where a quotient is**: on the side of the integer, by the distance. -/
theorem Whole.place?_div (h : x.Whole n) (hm : 0 < m.units) :
    (x / finite false m).place? =
      some (if n < 0 then -(quotientHeight m n.natAbs : Int) else quotientHeight m n.natAbs) := by
  obtain ⟨s, hdiv, hneg, hpos⟩ := exists_div_eq_ofQuotient h hm
  have hmin : (min (roundToGrid (n.natAbs * (unity * unity)) m.units) ceiling : Int) =
      quotientHeight m n.natAbs := by
    rw [quotientHeight]
    omega
  rw [hdiv, place?_ofQuotient, hmin, Option.some.injEq]
  cases s with
  | false => rw [if_neg Bool.false_ne_true, if_neg (Int.not_lt.mpr (hpos rfl))]
  | true =>
    rw [if_pos rfl]
    rcases Int.lt_or_eq_of_le (hneg rfl) with hlt | rfl
    · rw [if_pos hlt]
    · rw [if_neg (Int.lt_irrefl 0), Int.natAbs_zero, quotientHeight_zero hm]
      rfl

theorem Whole.isNan_div (h : x.Whole n) (hm : 0 < m.units) : (x / finite false m).isNan = false := by
  obtain ⟨s, hdiv, _, _⟩ := exists_div_eq_ofQuotient h hm
  rw [hdiv, ofQuotient]
  split <;> rfl

theorem Whole.isFinite_div_iff (h : x.Whole n) (hm : 0 < m.units) :
    (x / finite false m).isFinite = true ↔ quotientHeight m n.natAbs < ceiling := by
  obtain ⟨s, hdiv, _, _⟩ := exists_div_eq_ofQuotient h hm
  rw [hdiv, ofQuotient, quotientHeight]
  split
  · exact iff_of_true rfl (by omega)
  · exact iff_of_false Bool.false_ne_true (by omega)

/-- **Integers divided by one number are in the order of the integers**, if one of the two quotients is
finite. -/
theorem Whole.div_lt_div (hx : x.Whole n) (hy : y.Whole n') (hm : 0 < m.units) (hlt : n < n')
    (hn : n.natAbs ≤ 2 ^ 51) (hn' : n'.natAbs ≤ 2 ^ 51)
    (hfinite : (x / finite false m).isFinite = true ∨ (y / finite false m).isFinite = true) :
    (x / finite false m).lt (y / finite false m) = true := by
  rw [hx.isFinite_div_iff hm, hy.isFinite_div_iff hm] at hfinite
  rw [lt_eq_decide (hx.place?_div hm) (hy.place?_div hm), decide_eq_true_eq]
  rcases Int.lt_or_le n' 0 with hneg' | hpos'
  · -- Below zero the lower integer is the one that is farther away.
    rw [if_pos (Int.lt_trans hlt hneg'), if_pos hneg']
    exact Int.neg_lt_neg (Int.ofNat_lt.mpr (quotientHeight_lt hm (by omega) hn hfinite.symm))
  · rw [if_neg (Int.not_lt.mpr hpos')]
    rcases Int.lt_or_le n 0 with hneg | hpos
    · have hbelow := quotientHeight_pos hm (Int.natAbs_pos.mpr (Int.ne_of_lt hneg)) hn
      rw [if_pos hneg]
      omega
    · rw [if_neg (Int.not_lt.mpr hpos)]
      exact Int.ofNat_lt.mpr (quotientHeight_lt hm (by omega) hn' hfinite)

theorem Whole.place?_div_ne (h : x.Whole n) (hm : 0 < m.units) (hne : n ≠ 0) (hn : n.natAbs ≤ 2 ^ 51) :
    (x / finite false m).place? ≠ some 0 := by
  have hpos := quotientHeight_pos hm (Int.natAbs_pos.mpr hne) hn
  rw [h.place?_div hm, ne_eq, Option.some.injEq]
  split <;> omega

/-- What is one value and not finite is one infinity. -/
theorem exists_infinity_of_eq {p q : Binary64} (heq : p.eq q = true)
    (hinfinite : ¬ (p.isFinite = true ∨ q.isFinite = true)) :
    ∃ s, p = infinity s ∧ q = infinity s := by
  obtain ⟨hp, hq⟩ := not_or.mp hinfinite
  obtain ⟨hpnan, hqnan, _⟩ := eq_eq_true_iff.mp heq
  have hkey : valueKey p = valueKey q := valueKey_eq_iff.mpr (Or.inl heq)
  cases p with
  | nan s f => cases hpnan
  | infinity s =>
    cases q with
    | nan t g => cases hqnan
    | infinity t => exact ⟨s, rfl, hkey.symm⟩
    | finite t b => exact absurd rfl hq
  | finite s a => exact absurd rfl hp

theorem not_eq_of_lt {p q : Binary64} (h : p.lt q = true) : ¬ p.eq q = true := by
  intro heq
  obtain ⟨a, b, ha, hb, hab⟩ := lt_iff.mp h
  obtain ⟨_, _, hplace⟩ := eq_eq_true_iff.mp heq
  obtain rfl : a = b := Option.some.inj (ha.symm.trans (hplace.trans hb))
  exact Int.lt_irrefl a hab

/-- **Different integers divided by one number are one value only where both quotients are one infinity.** -/
theorem Whole.div_eq_div_iff (hx : x.Whole n) (hy : y.Whole n') (hm : 0 < m.units) (hne : n ≠ n')
    (hn : n.natAbs ≤ 2 ^ 51) (hn' : n'.natAbs ≤ 2 ^ 51) :
    (x / finite false m).eq (y / finite false m) = true ↔
      ∃ s, x / finite false m = infinity s ∧ y / finite false m = infinity s := by
  constructor
  · intro heq
    refine exists_infinity_of_eq heq fun hfinite => ?_
    rcases Int.lt_or_gt_of_ne hne with hlt | hgt
    · exact not_eq_of_lt (hx.div_lt_div hy hm hlt hn hn' hfinite) heq
    · refine not_eq_of_lt (hy.div_lt_div hx hm hgt hn' hn hfinite.symm) ?_
      obtain ⟨hxnan, hynan, hplace⟩ := eq_eq_true_iff.mp heq
      exact eq_eq_true_iff.mpr ⟨hynan, hxnan, hplace.symm⟩
  · rintro ⟨s, hs, ht⟩
    rw [hs, ht]
    exact eq_eq_true_iff.mpr ⟨rfl, rfl, rfl⟩

end LatencyLog.Binary64
