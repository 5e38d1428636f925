import LatencyLog.Proofs.Binary64.Heights

/-!
# Whole numbers

Up to 2^53 every whole number is a binary64 number, and to compute with such numbers is to compute with
integers: they are compared as integers, they are one value exactly if they are one integer, and a
difference is exact as long as it is within that bound itself (`Whole.sub`). Nothing is said of how a number
came about, and which zero it is makes no difference.
-/

namespace LatencyLog.Binary64

open Record (valueKey)

variable {x y : Binary64}

/-! ## Exact values -/

theorem units?_finite (s : Bool) (a : Magnitude) :
    (finite s a).units? = some (if s then -(a.units : Int) else a.units) := rfl

theorem place?_of_units? {u : Int} (h : x.units? = some u) : x.place? = some u := by
  cases x with
  | nan s f => cases h
  | infinity s => cases h
  | finite s a => exact h

theorem exists_finite_of_units? {u : Int} (h : x.units? = some u) :
    ∃ s a, x = finite s a ∧ a.units = u.natAbs ∧ u = if s then -(a.units : Int) else a.units := by
  cases x with
  | nan s f => cases h
  | infinity s => cases h
  | finite s a =>
    obtain rfl := Option.some.inj h
    refine ⟨s, a, rfl, ?_, rfl⟩
    cases s with
    | false => exact (Int.natAbs_natCast _).symm
    | true => exact ((Int.natAbs_neg _).trans (Int.natAbs_natCast _)).symm

/-- **A difference is the exact one, rounded.** -/
theorem exists_sub_eq_ofQuotient {u v : Int} (hx : x.units? = some u) (hy : y.units? = some v) :
    ∃ s, x - y = ofQuotient s (u - v).natAbs 1 ∧ (s = true → u ≤ v) ∧ (s = false → v ≤ u) := by
  obtain ⟨s, a, rfl, _, hu⟩ := exists_finite_of_units? hx
  obtain ⟨t, b, rfl, _, hv⟩ := exists_finite_of_units? hy
  rw [finite_sub_finite, finite_add_finite]
  by_cases hsign : s = !t
  · refine ⟨s, ?_, ?_, ?_⟩
    · have habs : a.units + b.units = (u - v).natAbs := by
        cases t <;> simp [hsign] at hu hv <;> omega
      rw [if_pos hsign, habs]
    · intro hs
      cases t with
      | true => simp [hsign] at hs
      | false =>
        simp [hsign] at hu hv
        omega
    · intro hs
      cases t with
      | true =>
        simp [hsign] at hu hv
        omega
      | false => simp [hsign] at hs
  · obtain rfl : s = t := Bool.not_eq_not.mp hsign
    rw [if_neg hsign]
    -- Of two magnitudes with one sign the greater one decides.
    rcases Nat.lt_trichotomy a.units b.units with h | h | h
    · have habs : b.units - a.units = (u - v).natAbs := by
        cases s <;> simp at hu hv <;> omega
      rw [if_neg (Nat.ne_of_lt h), if_pos h, habs]
      refine ⟨!s, rfl, ?_, ?_⟩ <;> cases s <;> simp at hu hv ⊢ <;> omega
    · have habs : (u - v).natAbs = 0 := by
        cases s <;> simp at hu hv <;> omega
      rw [if_pos h, habs]
      exact ⟨false, (ofQuotient_zero false).symm, fun hs => Bool.noConfusion hs, fun _ => by omega⟩
    · have habs : a.units - b.units = (u - v).natAbs := by
        cases s <;> simp at hu hv <;> omega
      rw [if_neg (Nat.ne_of_gt h), if_neg (Nat.lt_asymm h), habs]
      refine ⟨s, rfl, ?_, ?_⟩ <;> cases s <;> simp at hu hv ⊢ <;> omega

/-! ## Integers -/

/-- The number is an integer, exactly. -/
def Whole (x : Binary64) (n : Int) : Prop := x.units? = some (n * unity)

instance (x : Binary64) (n : Int) : Decidable (x.Whole n) := inferInstanceAs (Decidable (_ = _))

variable {m n : Int}

theorem unity_cast_pos : 0 < (unity : Int) := Int.natCast_pos.mpr unity_pos

theorem natAbs_mul_unity (n : Int) : (n * (unity : Int)).natAbs = n.natAbs * unity := by
  rw [Int.natAbs_mul, Int.natAbs_natCast]

/-- An integer within the bound needs no rounding. -/
theorem whole_ofQuotient {s : Bool} (h : n.natAbs ≤ 2 ^ 53) (hneg : s = true → n ≤ 0)
    (hpos : s = false → 0 ≤ n) : (ofQuotient s (n.natAbs * unity) 1).Whole n := by
  obtain ⟨a, ha, haunits⟩ := ofQuotient_mul_unity h s
  rw [ha, Whole, units?_finite, haunits, Int.natCast_mul]
  cases s with
  | false => rw [if_neg Bool.false_ne_true, Int.natAbs_of_nonneg (hpos rfl)]
  | true => rw [if_pos rfl, ← Int.neg_mul, Int.ofNat_natAbs_of_nonpos (hneg rfl), Int.neg_neg]

/-! ## Order and values -/

theorem Whole.lt_iff (hx : x.Whole m) (hy : y.Whole n) : x.lt y = true ↔ m < n := by
  rw [lt_eq_decide (place?_of_units? hx) (place?_of_units? hy), decide_eq_true_eq]
  exact Int.mul_lt_mul_right unity_cast_pos

theorem Whole.isNan (h : x.Whole n) : x.isNan = false := by
  obtain ⟨s, a, rfl, _⟩ := exists_finite_of_units? h
  rfl

/-- **One integer, one value**, whatever the sign of a zero is, and no other way round. -/
theorem Whole.valueKey_eq_iff (hx : x.Whole m) (hy : y.Whole n) : valueKey x = valueKey y ↔ m = n := by
  have hplace := place?_of_units? hx
  have hplace' := place?_of_units? hy
  constructor
  · intro hkey
    rw [← place?_valueKey, hkey, place?_valueKey, hplace', Option.some.injEq] at hplace
    exact (Int.eq_of_mul_eq_mul_right (Int.ne_of_gt unity_cast_pos) hplace).symm
  · rintro rfl
    exact valueKey_eq_of_place?_eq hx.isNan hy.isNan (hplace.trans hplace'.symm)

/-- **A difference within the bound is exact.** -/
theorem Whole.sub (hx : x.Whole m) (hy : y.Whole n) (h : (m - n).natAbs ≤ 2 ^ 53) :
    (x - y).Whole (m - n) := by
  obtain ⟨s, hsub, hneg, hpos⟩ := exists_sub_eq_ofQuotient hx hy
  rw [hsub, ← Int.sub_mul, natAbs_mul_unity]
  refine whole_ofQuotient h (fun hs => ?_) fun hs => ?_
  · have := Int.le_of_mul_le_mul_right (hneg hs) unity_cast_pos
    omega
  · have := Int.le_of_mul_le_mul_right (hpos hs) unity_cast_pos
    omega

end LatencyLog.Binary64
