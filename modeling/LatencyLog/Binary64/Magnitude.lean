import LatencyLog.Quotient

/-!
# Magnitudes of binary64 numbers

A finite binary64 number is a whole multiple of 2^-1074, so its magnitude is a natural: the number
of such units. Not every natural is one. Between two powers of two the representable naturals are
the multiples of a power of two (`gap`), chosen so that a magnitude has at most 53 significant
bits, and all of them lie below 2^2098 units.

Counting in units makes every exact fact a fact about naturals: the order of magnitudes is the
order of the naturals, a sum is the sum, and the only thing an operation has to add is one
rounding, `roundToGrid`, which takes an exact quotient to the nearest natural on the grid. That its
answer is on the grid (`onGrid_roundToGrid`) is proved here because the type `Magnitude` asks
for it.
-/

namespace LatencyLog.Binary64

/-- The units in 1. -/
def unity : Nat := 1 <<< 1074

/-- The first power of two that is too great for a finite number, in units. -/
def ceiling : Nat := 1 <<< 2098

/-- The distance between neighbouring magnitudes around `n` units: 53 significant bits remain. -/
def gap (n : Nat) : Nat := 1 <<< (n.log2 - 52)

/-- A natural that has no significant bit below its own gap. -/
def OnGrid (n : Nat) : Prop := gap n ∣ n

instance (n : Nat) : Decidable (OnGrid n) := inferInstanceAs (Decidable (gap n ∣ n))

theorem ceiling_pos : 0 < ceiling := by decide +kernel

theorem gap_pos (n : Nat) : 0 < gap n := by
  rw [gap, Nat.one_shiftLeft]
  exact Nat.two_pow_pos _

/-- Measured in its own gap, a natural takes at most 53 bits. -/
theorem div_gap_lt (n : Nat) : n / gap n < 1 <<< 53 := by
  rw [Nat.div_lt_iff_lt_mul (gap_pos n), gap, Nat.one_shiftLeft, Nat.one_shiftLeft, ← Nat.pow_add]
  exact Nat.lt_of_lt_of_le Nat.lt_log2_self (Nat.pow_le_pow_right (by decide) (by omega))

/-- At most 53 bits, moved up by any number of places, lie on the grid. -/
theorem onGrid_shiftLeft {m : Nat} (k : Nat) (hm : m ≤ 1 <<< 53) : OnGrid (m <<< k) := by
  rw [Nat.one_shiftLeft] at hm
  simp only [OnGrid, gap, Nat.shiftLeft_eq, Nat.one_mul]
  rcases Nat.eq_zero_or_pos m with rfl | hpos
  · simp
  rcases Nat.lt_or_ge m (2 ^ 53) with hlt | hge
  · have hlog : (m * 2 ^ k).log2 < 53 + k := by
      rw [Nat.log2_lt (Nat.mul_ne_zero (by omega) (Nat.ne_of_gt (Nat.two_pow_pos k))), Nat.pow_add]
      exact Nat.mul_lt_mul_of_pos_right hlt (Nat.two_pow_pos k)
    exact Nat.dvd_trans (Nat.pow_dvd_pow 2 (by omega)) (Nat.dvd_mul_left _ _)
  · have hm' : m = 2 ^ 53 := Nat.le_antisymm hm hge
    subst hm'
    rw [← Nat.pow_add, Nat.log2_two_pow]
    exact Nat.pow_dvd_pow 2 (by omega)

/-- The natural on the grid that is nearest to `num / den`, a tie going to the one whose last
significant bit is 0. It may be as great as `ceiling`, or greater. -/
def roundToGrid (num den : Nat) : Nat :=
  Quotient.nearestEven num (den * gap (num / den)) * gap (num / den)

theorem onGrid_roundToGrid (num den : Nat) : OnGrid (roundToGrid num den) := by
  have hdiv : num / (den * gap (num / den)) < 1 <<< 53 := by
    rw [← Nat.div_div_eq_div_mul]
    exact div_gap_lt _
  have hle := Quotient.nearestEven_le_floor_succ num (den * gap (num / den))
  have := onGrid_shiftLeft ((num / den).log2 - 52) (Nat.le_trans hle hdiv)
  rwa [Nat.shiftLeft_eq, ← Nat.one_shiftLeft] at this

/-- The magnitude of a finite number. -/
structure Magnitude where
  units : Nat
  onGrid : OnGrid units
  lt_ceiling : units < ceiling
deriving DecidableEq

namespace Magnitude

@[ext]
theorem ext {a b : Magnitude} (h : a.units = b.units) : a = b := by
  cases a
  cases b
  cases h
  rfl

/-- No unit at all. -/
def zero : Magnitude := ⟨0, ⟨0, (Nat.mul_zero _).symm⟩, ceiling_pos⟩

end Magnitude

end LatencyLog.Binary64
