import LatencyLog.Proofs.Binary64.Rounding
import LatencyLog.Proofs.Binary64.Zeros

/-!
# Comparisons, and the sign of a difference

To compare numbers is to compare their places, and a NaN has none (`lt_iff`, `le_iff`).

A difference is rounded, so it may be far from exact. Its sign is right all the same (`zero_lt_sub`):
*`x - y` is positive exactly when `x` is greater than `y`*. The exact difference is a whole number of
units, and some units are not rounded to none (`roundToGrid_pos`). Infinities are no exception: one less
itself is a NaN, which is not positive, and any other difference with an infinity in it is infinite on
the side that the comparison says.
-/

namespace LatencyLog.Binary64

/-! ## Places -/

theorem compareBy_iff {test : Int → Int → Bool} {x y : Binary64} :
    compareBy test x y = true ↔
      ∃ a b, x.place? = some a ∧ y.place? = some b ∧ test a b = true := by
  unfold compareBy
  cases x.place? with
  | none => simp
  | some a =>
    cases y.place? with
    | none => simp
    | some b => simp

theorem place?_infinity (s : Bool) :
    (infinity s).place? = some (if s then -(ceiling : Int) else ceiling) := rfl

theorem place?_finite (s : Bool) (m : Magnitude) :
    (finite s m).place? = some (if s then -(m.units : Int) else m.units) := rfl

theorem place?_zero : zero.place? = some 0 := rfl

theorem lt_eq_decide {x y : Binary64} {a b : Int} (hx : x.place? = some a) (hy : y.place? = some b) :
    x.lt y = decide (a < b) := by
  simp only [lt, compareBy, hx, hy]

theorem lt_iff {x y : Binary64} :
    x.lt y = true ↔ ∃ a b, x.place? = some a ∧ y.place? = some b ∧ a < b := by
  simp only [lt, compareBy_iff, decide_eq_true_eq]

theorem le_iff {x y : Binary64} :
    x.le y = true ↔ ∃ a b, x.place? = some a ∧ y.place? = some b ∧ a ≤ b := by
  simp only [le, compareBy_iff, decide_eq_true_eq]

theorem le_of_lt {x y : Binary64} (h : x.lt y = true) : x.le y = true := by
  obtain ⟨a, b, hx, hy, hab⟩ := lt_iff.mp h
  exact le_iff.mpr ⟨a, b, hx, hy, Int.le_of_lt hab⟩

theorem le_trans {x y z : Binary64} (hxy : x.le y = true) (hyz : y.le z = true) : x.le z = true := by
  obtain ⟨a, b, hx, hy, hab⟩ := le_iff.mp hxy
  obtain ⟨b', c, hy', hz, hbc⟩ := le_iff.mp hyz
  obtain rfl : b = b' := Option.some.inj (hy.symm.trans hy')
  exact le_iff.mpr ⟨a, c, hx, hz, Int.le_trans hab hbc⟩

theorem lt_of_le_of_lt {x y z : Binary64} (hxy : x.le y = true) (hyz : y.lt z = true) :
    x.lt z = true := by
  obtain ⟨a, b, hx, hy, hab⟩ := le_iff.mp hxy
  obtain ⟨b', c, hy', hz, hbc⟩ := lt_iff.mp hyz
  obtain rfl : b = b' := Option.some.inj (hy.symm.trans hy')
  exact lt_iff.mpr ⟨a, c, hx, hz, Int.lt_of_le_of_lt hab hbc⟩

theorem lt_of_lt_of_le {x y z : Binary64} (hxy : x.lt y = true) (hyz : y.le z = true) :
    x.lt z = true := by
  obtain ⟨a, b, hx, hy, hab⟩ := lt_iff.mp hxy
  obtain ⟨b', c, hy', hz, hbc⟩ := le_iff.mp hyz
  obtain rfl : b = b' := Option.some.inj (hy.symm.trans hy')
  exact lt_iff.mpr ⟨a, c, hx, hz, Int.lt_of_lt_of_le hab hbc⟩

theorem not_lt_of_le {x y : Binary64} (h : x.le y = true) : y.lt x = false := by
  obtain ⟨a, b, hx, hy, hab⟩ := le_iff.mp h
  rw [lt_eq_decide hy hx, decide_eq_false_iff_not]
  exact Int.not_lt.mpr hab

theorem lt_irrefl (x : Binary64) : x.lt x = false := by
  rw [Bool.eq_false_iff]
  intro h
  obtain ⟨a, b, ha, hb, hab⟩ := lt_iff.mp h
  obtain rfl : a = b := Option.some.inj (ha.symm.trans hb)
  exact absurd hab (Int.lt_irrefl a)

theorem ne_of_lt {x y : Binary64} (h : x.lt y = true) : x ≠ y := by
  rintro rfl
  rw [lt_irrefl] at h
  cases h

theorem finite_inj {a b : Magnitude} : finite false a = finite false b ↔ a.units = b.units := by
  rw [finite.injEq, Magnitude.ext_iff, and_iff_right rfl]

theorem finite_lt_finite {a b : Magnitude} :
    (finite false a).lt (finite false b) = true ↔ a.units < b.units := by
  rw [lt_eq_decide (place?_finite false a) (place?_finite false b), decide_eq_true_eq]
  exact Int.ofNat_lt

theorem finite_le_finite {a b : Magnitude} :
    (finite false a).le (finite false b) = true ↔ a.units ≤ b.units := by
  simp only [le, compareBy, place?_finite, decide_eq_true_eq]
  exact Int.ofNat_le

theorem zero_lt_finite {m : Magnitude} : zero.lt (finite false m) = true ↔ 0 < m.units :=
  finite_lt_finite

theorem finite_eq_zero {m : Magnitude} (h : 0 < m.units) : (finite false m).eq zero = false := by
  have hne : (m.units : Int) ≠ 0 := by omega
  simp only [eq, compareBy, place?_finite, place?_zero]
  exact decide_eq_false hne

theorem lt_of_isNan {x : Binary64} (h : x.isNan = true) (y : Binary64) :
    x.lt y = false ∧ y.lt x = false := by
  cases x with
  | nan s f =>
    refine ⟨rfl, ?_⟩
    cases y <;> rfl
  | infinity s => cases h
  | finite s m => cases h

/-! ## The place of what is rounded -/

theorem place?_ofQuotient (s : Bool) (num den : Nat) :
    (ofQuotient s num den).place? =
      some (if s then -(min (roundToGrid num den) ceiling : Int)
        else min (roundToGrid num den) ceiling) := by
  unfold ofQuotient
  split
  · rename_i h
    rw [place?]
    cases s <;> simp <;> omega
  · rename_i h
    rw [place?]
    cases s <;> simp <;> omega

theorem not_zero_lt_ofQuotient_true (num den : Nat) : zero.lt (ofQuotient true num den) = false := by
  rw [lt_eq_decide place?_zero (place?_ofQuotient true num den), if_pos rfl, decide_eq_false_iff_not]
  omega

/-- Some units stay some units, and a sign stays. -/
theorem zero_lt_ofQuotient_one (s : Bool) (n : Nat) :
    zero.lt (ofQuotient s n 1) = true ↔ s = false ∧ 0 < n := by
  have hceiling := ceiling_pos
  have hround : 0 < roundToGrid n 1 ↔ 0 < n := by
    refine ⟨fun h => Nat.pos_of_ne_zero ?_, roundToGrid_pos⟩
    rintro rfl
    exact absurd h (by decide)
  rw [lt_eq_decide place?_zero (place?_ofQuotient s n 1), decide_eq_true_eq]
  cases s with
  | false =>
    simp only [Bool.false_eq_true, if_false, true_and]
    omega
  | true =>
    simp only [if_true, Bool.true_eq_false, false_and, iff_false]
    omega

/-! ## Differences -/

theorem finite_sub_finite (s t : Bool) (a b : Magnitude) :
    finite s a - finite t b = finite s a + finite (!t) b := rfl

theorem zero_lt_finite_sub_finite (s t : Bool) (a b : Magnitude) :
    zero.lt (finite s a - finite t b) = true ↔ (finite t b).lt (finite s a) = true := by
  rw [lt_eq_decide (place?_finite t b) (place?_finite s a), decide_eq_true_eq, finite_sub_finite,
    finite_add_finite]
  -- Magnitudes of two signs are added, and of those of one sign the greater one decides.
  by_cases hsign : s = !t
  · rw [if_pos hsign, zero_lt_ofQuotient_one, hsign]
    cases t with
    | false =>
      simp only [Bool.not_false, Bool.true_eq_false, false_and, if_true, Bool.false_eq_true, if_false,
        false_iff]
      omega
    | true =>
      simp only [Bool.not_true, true_and, if_true, Bool.false_eq_true, if_false]
      omega
  · obtain rfl : s = t := Bool.not_eq_not.mp hsign
    have horder : (if s then -(b.units : Int) else b.units) < (if s then -(a.units : Int) else a.units) ↔
        if s then a.units < b.units else b.units < a.units := by
      cases s with
      | false => exact Int.ofNat_lt
      | true => exact Int.neg_lt_neg_iff.trans Int.ofNat_lt
    rw [if_neg hsign, horder]
    rcases Nat.lt_trichotomy a.units b.units with h | h | h
    · rw [if_neg (Nat.ne_of_lt h), if_pos h, zero_lt_ofQuotient_one]
      cases s with
      | false => exact iff_of_false (fun hs => Bool.noConfusion hs.1) (Nat.lt_asymm h)
      | true => exact iff_of_true ⟨rfl, Nat.sub_pos_of_lt h⟩ h
    · rw [if_pos h, lt_eq_decide place?_zero place?_zero, h]
      cases s with
      | false => exact iff_of_false (by decide) (Nat.lt_irrefl _)
      | true => exact iff_of_false (by decide) (Nat.lt_irrefl _)
    · rw [if_neg (Nat.ne_of_gt h), if_neg (Nat.lt_asymm h), zero_lt_ofQuotient_one]
      cases s with
      | false => exact iff_of_true ⟨rfl, Nat.sub_pos_of_lt h⟩ h
      | true => exact iff_of_false (fun hs => Bool.noConfusion hs.1) (Nat.lt_asymm h)

theorem zero_lt_infinity (s t : Bool) (m : Magnitude) :
    zero.lt (infinity s) = (finite t m).lt (infinity s) := by
  have hlt := m.lt_ceiling
  rw [lt_eq_decide place?_zero (place?_infinity s),
    lt_eq_decide (place?_finite t m) (place?_infinity s), decide_eq_decide]
  cases s with
  | false =>
    simp only [Bool.false_eq_true, if_false]
    split <;> omega
  | true =>
    simp only [if_true]
    split <;> omega

theorem zero_lt_not_infinity (s t : Bool) (m : Magnitude) :
    zero.lt (infinity !t) = (infinity t).lt (finite s m) := by
  have hlt := m.lt_ceiling
  rw [lt_eq_decide place?_zero (place?_infinity !t),
    lt_eq_decide (place?_infinity t) (place?_finite s m), decide_eq_decide]
  cases t with
  | false =>
    simp only [Bool.not_false, if_true, Bool.false_eq_true, if_false]
    split <;> omega
  | true =>
    simp only [Bool.not_true, if_true, Bool.false_eq_true, if_false]
    split <;> omega

theorem zero_lt_infinity_sub_infinity (s t : Bool) :
    zero.lt (infinity s - infinity t) = (infinity t).lt (infinity s) := by
  have hceiling := ceiling_pos
  rw [lt_eq_decide (place?_infinity t) (place?_infinity s)]
  by_cases hsign : s = !t
  · have hsub : infinity s - infinity t = infinity s := if_pos hsign
    rw [hsub, lt_eq_decide place?_zero (place?_infinity s), decide_eq_decide, hsign]
    cases t with
    | false =>
      simp only [Bool.not_false, if_true, Bool.false_eq_true, if_false]
      omega
    | true =>
      simp only [Bool.not_true, if_true, Bool.false_eq_true, if_false]
      omega
  · have hsub : infinity s - infinity t = nan false := if_neg hsign
    obtain rfl : s = t := Bool.not_eq_not.mp hsign
    rw [hsub]
    exact (decide_eq_false (Int.lt_irrefl _)).symm

/-- **A difference has the sign of the comparison.** -/
theorem zero_lt_sub (x y : Binary64) : zero.lt (x - y) = y.lt x := by
  cases x with
  | nan s f => cases y <;> rfl
  | infinity s =>
    cases y with
    | nan t g => rfl
    | infinity t => exact zero_lt_infinity_sub_infinity s t
    | finite t b => exact zero_lt_infinity s t b
  | finite s a =>
    cases y with
    | nan t g => rfl
    | infinity t => exact zero_lt_not_infinity s t a
    | finite t b => exact Bool.eq_iff_iff.mpr (zero_lt_finite_sub_finite s t a b)

end LatencyLog.Binary64
