import LatencyLog.Binary64.Arithmetic
import LatencyLog.Binary64.Order
import LatencyLog.Proofs.Binary64.Bits
import LatencyLog.Record

/-!
# The two zeros

Two readings that differ in the sign of a zero are one value, and `Record.valueKey` picks the
positive zero to stand for both. What that choice may change is nothing that is ever reported:

* numbers with one key are those that compare as equal, and each NaN with itself
  (`valueKey_eq_iff`);
* a comparison does not tell a number from its key (`lt_valueKey`);
* a difference of keys is the difference of the numbers, again up to the sign of a zero
  (`valueKey_sub`), so a difference that is positive is exactly the same.

The last is where the two zeros could have shown: `0 - 0` and `-0 - 0` are different numbers.
-/

namespace LatencyLog.Binary64

open Record (valueKey)

/-! ## Keys -/

theorem units_zero : Magnitude.zero.units = 0 := rfl

theorem eq_zero_of_units_eq_zero {m : Magnitude} (h : m.units = 0) : m = .zero := Magnitude.ext h

@[simp]
theorem valueKey_negativeZero : valueKey negativeZero = zero := by
  rw [negativeZero, valueKey, if_pos units_zero]

/-- Any other number is its own key. -/
theorem valueKey_of_ne {x : Binary64} (h : x ≠ negativeZero) : valueKey x = x := by
  cases x with
  | nan s f => rfl
  | infinity s => rfl
  | finite s m =>
    cases s with
    | false => rfl
    | true =>
      have hm : m.units ≠ 0 := fun h0 => h (by rw [negativeZero, eq_zero_of_units_eq_zero h0])
      rw [valueKey, if_neg hm]

theorem valueKey_of_units_eq_zero (s : Bool) {m : Magnitude} (h : m.units = 0) :
    valueKey (finite s m) = zero := by
  rw [eq_zero_of_units_eq_zero h]
  cases s with
  | false => rfl
  | true => exact valueKey_negativeZero

/-- A number and its key have one place on the line of values. -/
@[simp]
theorem place?_valueKey (x : Binary64) : (valueKey x).place? = x.place? := by
  by_cases h : x = negativeZero
  · rw [h, valueKey_negativeZero]
    rfl
  · rw [valueKey_of_ne h]

theorem lt_valueKey (x y : Binary64) : x.lt (valueKey y) = x.lt y := by
  rw [lt, compareBy, compareBy, place?_valueKey]

/-! ## Numbers with one key -/

/-- Off the NaNs the place is the key: only the two zeros share one. -/
theorem valueKey_eq_of_place?_eq {x y : Binary64} (hx : x.isNan = false) (hy : y.isNan = false)
    (h : x.place? = y.place?) : valueKey x = valueKey y := by
  have hceiling := ceiling_pos
  cases x with
  | nan s f => cases hx
  | infinity s =>
    cases y with
    | nan t g => cases hy
    | infinity t => cases s <;> cases t <;> simp [place?] at h ⊢ <;> omega
    | finite t b =>
      have hb := b.lt_ceiling
      cases s <;> cases t <;> simp [place?] at h <;> omega
  | finite s a =>
    have ha := a.lt_ceiling
    cases y with
    | nan t g => cases hy
    | infinity t => cases s <;> cases t <;> simp [place?] at h <;> omega
    | finite t b =>
      -- Magnitudes are equal in any case; the signs are, unless the magnitude is 0.
      have hunits : a = b := by
        apply Magnitude.ext
        cases s <;> cases t <;> simp [place?] at h <;> omega
      subst hunits
      by_cases h0 : a.units = 0
      · rw [valueKey_of_units_eq_zero s h0, valueKey_of_units_eq_zero t h0]
      · cases s <;> cases t <;> simp [place?] at h ⊢ <;> omega

theorem eq_eq_true_iff {x y : Binary64} :
    x.eq y = true ↔ x.isNan = false ∧ y.isNan = false ∧ x.place? = y.place? := by
  cases x <;> cases y <;> simp [eq, compareBy, place?, isNan]

theorem isNan_valueKey (x : Binary64) : (valueKey x).isNan = x.isNan := by
  by_cases h : x = negativeZero
  · rw [h, valueKey_negativeZero]
    rfl
  · rw [valueKey_of_ne h]

/-- **One key: equal as numbers, or one NaN to the bit.** -/
theorem valueKey_eq_iff {x y : Binary64} :
    valueKey x = valueKey y ↔ x.eq y = true ∨ (x.isNan = true ∧ x.bits = y.bits) := by
  constructor
  · intro h
    have hplace : x.place? = y.place? := by rw [← place?_valueKey x, h, place?_valueKey]
    have hnan : x.isNan = y.isNan := by rw [← isNan_valueKey x, h, isNan_valueKey]
    cases hx : x.isNan with
    | false => exact Or.inl (eq_eq_true_iff.mpr ⟨hx, hnan ▸ hx, hplace⟩)
    | true =>
      have hself : ∀ z : Binary64, z.isNan = true → valueKey z = z := by
        intro z hz
        refine valueKey_of_ne fun h0 => ?_
        rw [h0] at hz
        cases hz
      rw [hself x hx, hself y (hnan ▸ hx)] at h
      exact Or.inr ⟨rfl, by rw [h]⟩
  · rintro (h | ⟨_, h⟩)
    · obtain ⟨hx, hy, hplace⟩ := eq_eq_true_iff.mp h
      exact valueKey_eq_of_place?_eq hx hy hplace
    · rw [bits_injective h]

/-! ## Differences of keys -/

theorem ofQuotient_zero (s : Bool) : ofQuotient s 0 1 = finite s .zero := by
  have h : roundToGrid 0 1 = 0 := by
    rw [roundToGrid, Quotient.nearestEven_of_dvd (Nat.mul_pos Nat.one_pos (gap_pos _)) (Nat.dvd_zero _),
      Nat.zero_div, Nat.zero_mul]
  rw [ofQuotient, dif_pos (h ▸ ceiling_pos)]
  exact congrArg _ (Magnitude.ext h)

theorem finite_add_finite (s t : Bool) (a b : Magnitude) :
    finite s a + finite t b =
      if s = t then ofQuotient s (a.units + b.units) 1
      else if a.units = b.units then zero
      else if a.units < b.units then ofQuotient t (b.units - a.units) 1
      else ofQuotient s (a.units - b.units) 1 := rfl

/-- Two zeros add up to a zero, whatever their signs. -/
theorem valueKey_zero_add_zero (s t : Bool) :
    valueKey (finite s .zero + finite t .zero) = zero := by
  cases s <;> cases t
  · exact congrArg valueKey (ofQuotient_zero false)
  · rfl
  · rfl
  · exact (congrArg valueKey (ofQuotient_zero true)).trans valueKey_negativeZero

/-- What is not zero does not see the sign of a zero that is added to it. -/
theorem finite_add_zero {s : Bool} {m : Magnitude} (h : m.units ≠ 0) (t : Bool) :
    finite s m + finite t .zero = ofQuotient s m.units 1 := by
  rw [finite_add_finite]
  by_cases hst : s = t
  · rw [if_pos hst, units_zero, Nat.add_zero]
  · rw [if_neg hst, if_neg (by rwa [units_zero]), if_neg (by rw [units_zero]; exact Nat.not_lt_zero _),
      units_zero, Nat.sub_zero]

theorem zero_add_finite {s : Bool} {m : Magnitude} (h : m.units ≠ 0) (t : Bool) :
    finite t .zero + finite s m = ofQuotient s m.units 1 := by
  rw [finite_add_finite]
  by_cases hts : t = s
  · rw [if_pos hts, units_zero, Nat.zero_add, hts]
  · rw [if_neg hts, if_neg (by rw [units_zero]; exact Ne.symm h),
      if_pos (by rw [units_zero]; exact Nat.pos_of_ne_zero h), units_zero, Nat.sub_zero]

theorem valueKey_add_zero (x : Binary64) (s t : Bool) :
    valueKey (x + finite s .zero) = valueKey (x + finite t .zero) := by
  cases x with
  | nan u f => rfl
  | infinity u => rfl
  | finite u m =>
    by_cases h : m.units = 0
    · rw [eq_zero_of_units_eq_zero h, valueKey_zero_add_zero, valueKey_zero_add_zero]
    · rw [finite_add_zero h, finite_add_zero h]

theorem valueKey_zero_add (x : Binary64) (s t : Bool) :
    valueKey (finite s .zero + x) = valueKey (finite t .zero + x) := by
  cases x with
  | nan u f => rfl
  | infinity u => rfl
  | finite u m =>
    by_cases h : m.units = 0
    · rw [eq_zero_of_units_eq_zero h, valueKey_zero_add_zero, valueKey_zero_add_zero]
    · rw [zero_add_finite h, zero_add_finite h]

/-- **A difference of keys is the difference, up to the sign of a zero.** -/
theorem valueKey_sub (x y : Binary64) :
    valueKey (valueKey x - valueKey y) = valueKey (x - y) := by
  have hright : valueKey (valueKey x - valueKey y) = valueKey (valueKey x - y) := by
    by_cases h : y = negativeZero
    · rw [h, valueKey_negativeZero]
      exact valueKey_add_zero (valueKey x) true false
    · rw [valueKey_of_ne h]
  rw [hright]
  by_cases h : x = negativeZero
  · rw [h, valueKey_negativeZero]
    exact valueKey_zero_add (neg y) false true
  · rw [valueKey_of_ne h]

/-- A positive number is its own key. -/
theorem valueKey_of_pos {x : Binary64} (h : zero.lt x = true) : valueKey x = x := by
  refine valueKey_of_ne fun h0 => ?_
  rw [h0] at h
  exact absurd h (by decide)

end LatencyLog.Binary64
