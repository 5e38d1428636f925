import LatencyLog.Proofs.Binary64.Heights
import Mathlib.Algebra.Order.Group.Int
import Mathlib.Order.Monotone.Odd

/-!
# Dividing by one number

Numbers that are divided by one positive number keep their order (`div_le_div`). Two of them can become one
number, as rounding takes quotients together that are close, but rounding does not exchange them, an infinity
stays the infinity that it was, and dividing a number of the other sign is the same on the other side of zero.
So only distances from zero have to be compared.

A number divided by itself is 1 (`finite_div_self`), and divided by 1 it is itself, with the sign of a zero
(`div_one`).
-/

namespace LatencyLog.Binary64

variable {x y : Binary64} {m : Magnitude}

/-! ## Where a quotient is -/

/-- The height of a number of height `n` when it is divided. -/
def dividedHeight (m : Magnitude) (n : Nat) : Nat :=
  if n < ceiling then min (roundToGrid (n * unity) m.units) ceiling else ceiling

theorem dividedHeight_zero (hm : 0 < m.units) : dividedHeight m 0 = 0 := by
  rw [dividedHeight, if_pos ceiling_pos, Nat.zero_mul, roundToGrid_zero hm, Nat.zero_min]

theorem dividedHeight_mono (hm : 0 < m.units) {j k : Nat} (h : j ≤ k) :
    dividedHeight m j ≤ dividedHeight m k := by
  have hround := roundToGrid_mono hm (Nat.mul_le_mul_right unity h)
  unfold dividedHeight
  split
  · split
    · omega
    · exact Nat.min_le_right _ _
  · rw [if_neg (by omega)]

/-- The place of a number at place `a` when it is divided. -/
def dividedPlace (m : Magnitude) (a : Int) : Int := a.sign * dividedHeight m a.natAbs

theorem dividedPlace_neg (m : Magnitude) (a : Int) : dividedPlace m (-a) = -dividedPlace m a := by
  rw [dividedPlace, dividedPlace, Int.sign_neg, Int.natAbs_neg, Int.neg_mul]

theorem dividedPlace_natCast (hm : 0 < m.units) (n : Nat) : dividedPlace m n = dividedHeight m n := by
  rcases Nat.eq_zero_or_pos n with rfl | hpos
  · rw [dividedHeight_zero hm]
    exact Int.zero_mul _
  · rw [dividedPlace, Int.sign_eq_one_of_pos (Int.natCast_pos.mpr hpos), Int.one_mul, Int.natAbs_natCast]

theorem dividedPlace_mono (hm : 0 < m.units) {a b : Int} (h : a ≤ b) :
    dividedPlace m a ≤ dividedPlace m b := by
  -- What is the same on both sides of zero is in order if it is on one.
  refine monotone_of_odd_of_monotoneOn_nonneg (dividedPlace_neg m) (fun c hc d hd hcd => ?_) h
  obtain ⟨j, rfl⟩ := Int.eq_ofNat_of_zero_le hc
  obtain ⟨k, rfl⟩ := Int.eq_ofNat_of_zero_le hd
  rw [dividedPlace_natCast hm, dividedPlace_natCast hm]
  exact Int.ofNat_le.mpr (dividedHeight_mono hm (Int.ofNat_le.mp hcd))

theorem place?_div (hm : 0 < m.units) {a : Int} (h : x.place? = some a) :
    (x / finite false m).place? = some (dividedPlace m a) := by
  cases x with
  | nan s f => cases h
  | infinity s =>
    have hdiv : infinity s / finite false m = infinity (s != false) := rfl
    have hceiling : dividedPlace m ceiling = ceiling := by
      rw [dividedPlace_natCast hm, dividedHeight, if_neg (Nat.lt_irrefl _)]
    obtain rfl := Option.some.inj h
    rw [hdiv, Bool.bne_false, place?_infinity]
    cases s with
    | false => rw [if_neg Bool.false_ne_true, hceiling]
    | true => rw [if_pos rfl, dividedPlace_neg, hceiling]
  | finite s u =>
    have hunits : dividedPlace m u.units = min (roundToGrid (u.units * unity) m.units : Int) ceiling := by
      rw [dividedPlace_natCast hm, dividedHeight, if_pos u.lt_ceiling]
      omega
    obtain rfl := Option.some.inj h
    rw [finite_div_finite _ _ _ _ (Nat.ne_of_gt hm), Bool.bne_false, place?_ofQuotient]
    cases s with
    | false => rw [if_neg Bool.false_ne_true, if_neg Bool.false_ne_true, hunits]
    | true => rw [if_pos rfl, if_pos rfl, dividedPlace_neg, hunits]

/-- **Numbers divided by one positive number keep their order**, rounding and infinities notwithstanding. -/
theorem div_le_div (hm : 0 < m.units) (h : x.le y = true) :
    (x / finite false m).le (y / finite false m) = true := by
  obtain ⟨a, b, ha, hb, hab⟩ := le_iff.mp h
  exact le_iff.mpr ⟨_, _, place?_div hm ha, place?_div hm hb, dividedPlace_mono hm hab⟩

/-! ## Two divisors -/

theorem finite_div_self (hm : 0 < m.units) : finite false m / finite false m = one := by
  have hone := ofQuotient_mul_left hm false unity 1
  rw [finite_div_finite _ _ _ _ (Nat.ne_of_gt hm), Bool.bne_false, one, ofNat, Nat.one_mul, ← hone,
    Nat.mul_one]

/-- **A number divided by 1 is that number**, to the sign of a zero. -/
theorem div_one (h : x.isNan = false) : x / one = x := by
  obtain ⟨w, hw, hwunits⟩ := ofNat_exact (n := 1) (by decide)
  have hpos : w.units ≠ 0 := by
    rw [hwunits, Nat.one_mul]
    exact Nat.ne_of_gt unity_pos
  rw [one, hw]
  cases x with
  | nan s f => cases h
  | infinity s =>
    have hdiv : infinity s / finite false w = infinity (s != false) := rfl
    rw [hdiv, Bool.bne_false]
  | finite s u =>
    have hsame := ofQuotient_mul_left unity_pos s u.units 1
    rw [finite_div_finite _ _ _ _ hpos, Bool.bne_false, hwunits, Nat.mul_comm u.units, Nat.mul_comm 1, hsame,
      ofQuotient_units]

end LatencyLog.Binary64
