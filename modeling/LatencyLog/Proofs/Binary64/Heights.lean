import LatencyLog.Proofs.Binary64.Comparison
import LatencyLog.Proofs.Binary64.Grid

/-!
# Numbers that are not negative, by their height

A number that is not negative has a height: its distance from zero in units, with infinity at `ceiling`.
What such numbers do in a mean is all said with heights. Adding is adding naturals, rounding, and stopping
at the ceiling (`height_add`), so a sum never falls and stays infinite once it is (`le_accumulate`). The zero
with a sign, at which a sum starts, leaves any number as it is, to the bit (`negativeZero_add`). A divisor of
one or more takes nothing above where it was, and leaves what is infinite where it is (`height_div_le`,
`isFinite_div`); what it takes to zero is what is less than half a unit behind it (`zero_lt_div_iff`). And a
word that such a number is rounded to is known by its height (`toWord_of_zero_le`).
-/

namespace LatencyLog.Binary64

/-! ## Heights -/

/-- The distance from zero, of a number that is not negative. -/
def height (x : Binary64) : Nat := (x.place?.getD 0).toNat

theorem zero_le_iff {x : Binary64} : zero.le x = true ↔ ∃ n : Nat, x.place? = some (n : Int) := by
  rw [le_iff]
  constructor
  · rintro ⟨a, b, ha, hb, hle⟩
    obtain rfl : (0 : Int) = a := Option.some.inj (place?_zero.symm.trans ha)
    obtain ⟨n, rfl⟩ := Int.eq_ofNat_of_zero_le hle
    exact ⟨n, hb⟩
  · rintro ⟨n, hn⟩
    exact ⟨0, n, place?_zero, hn, Int.natCast_nonneg n⟩

theorem height_of_place? {x : Binary64} {n : Nat} (h : x.place? = some (n : Int)) :
    x.height = n := by
  rw [height, h]
  rfl

theorem place?_of_zero_le {x : Binary64} (h : zero.le x = true) : x.place? = some (x.height : Int) := by
  obtain ⟨n, hn⟩ := zero_le_iff.mp h
  rw [height_of_place? hn]
  exact hn

theorem height_infinity : (infinity false).height = ceiling := height_of_place? rfl

theorem height_finite (m : Magnitude) : (finite false m).height = m.units := height_of_place? rfl

theorem zero_le_infinity : zero.le (infinity false) = true := zero_le_iff.mpr ⟨ceiling, rfl⟩

theorem zero_le_negativeZero : zero.le negativeZero = true := by decide

theorem height_negativeZero : negativeZero.height = 0 := by decide

/-- What is not negative is infinite, or finite without a sign, or the zero with one. -/
theorem cases_of_zero_le {x : Binary64} (h : zero.le x = true) :
    x = infinity false ∨ (∃ m, x = finite false m) ∨ x = negativeZero := by
  obtain ⟨n, hn⟩ := zero_le_iff.mp h
  have hceiling := ceiling_pos
  cases x with
  | nan s f => cases hn
  | infinity s =>
    cases s with
    | false => exact Or.inl rfl
    | true =>
      have hplace : -(ceiling : Int) = n := Option.some.inj hn
      omega
  | finite s m =>
    cases s with
    | false => exact Or.inr (Or.inl ⟨m, rfl⟩)
    | true =>
      have hplace : -(m.units : Int) = n := Option.some.inj hn
      have hunits : m.units = 0 := by omega
      rw [eq_zero_of_units_eq_zero hunits]
      exact Or.inr (Or.inr rfl)

theorem isNan_of_zero_le {x : Binary64} (h : zero.le x = true) : x.isNan = false := by
  rcases cases_of_zero_le h with rfl | ⟨m, rfl⟩ | rfl
  · rfl
  · rfl
  · rfl

theorem zero_lt_iff_height_pos {x : Binary64} (h : zero.le x = true) :
    zero.lt x = true ↔ 0 < x.height := by
  rw [lt_eq_decide place?_zero (place?_of_zero_le h), decide_eq_true_eq]
  omega

theorem isFinite_iff_height_lt {x : Binary64} (h : zero.le x = true) :
    x.isFinite = true ↔ x.height < ceiling := by
  rcases cases_of_zero_le h with rfl | ⟨m, rfl⟩ | rfl
  · rw [height_infinity]
    exact iff_of_false Bool.false_ne_true (Nat.lt_irrefl _)
  · rw [height_finite]
    exact iff_of_true rfl m.lt_ceiling
  · rw [height_negativeZero]
    exact iff_of_true rfl ceiling_pos

theorem ceiling_le_height {x : Binary64} (h : zero.le x = true) (hfinite : x.isFinite = false) :
    ceiling ≤ x.height := by
  rw [Bool.eq_false_iff, ne_eq, isFinite_iff_height_lt h] at hfinite
  exact Nat.le_of_not_lt hfinite

theorem onGrid_height {x : Binary64} (h : zero.le x = true) : OnGrid x.height := by
  rcases cases_of_zero_le h with rfl | ⟨m, rfl⟩ | rfl
  · rw [height_infinity]
    exact onGrid_ceiling
  · rw [height_finite]
    exact m.onGrid
  · rw [height_negativeZero]
    exact onGrid_zero

theorem height_le_ceiling {x : Binary64} (h : zero.le x = true) : x.height ≤ ceiling := by
  rcases cases_of_zero_le h with rfl | ⟨m, rfl⟩ | rfl
  · exact Nat.le_of_eq height_infinity
  · rw [height_finite]
    exact Nat.le_of_lt m.lt_ceiling
  · rw [height_negativeZero]
    exact Nat.zero_le _

theorem exists_of_isUsable {x : Binary64} (h : x.isUsable = true) :
    ∃ m : Magnitude, x = finite false m ∧ 0 < m.units := by
  obtain ⟨hpos, hfinite⟩ := Bool.and_eq_true_iff.mp h
  have hzero := le_of_lt hpos
  rw [zero_lt_iff_height_pos hzero] at hpos
  rcases cases_of_zero_le hzero with rfl | ⟨m, rfl⟩ | rfl
  · cases hfinite
  · rw [height_finite] at hpos
    exact ⟨m, rfl, hpos⟩
  · rw [height_negativeZero] at hpos
    exact absurd hpos (Nat.lt_irrefl 0)

/-! ## Rounded quotients -/

theorem place?_ofQuotient_false (num den : Nat) :
    (ofQuotient false num den).place? = some ((min (roundToGrid num den) ceiling : Nat) : Int) := by
  have hmin : (min (roundToGrid num den : Int) ceiling) =
      ((min (roundToGrid num den) ceiling : Nat) : Int) := by omega
  rw [place?_ofQuotient, if_neg Bool.false_ne_true, hmin]

theorem zero_le_ofQuotient (num den : Nat) : zero.le (ofQuotient false num den) = true :=
  zero_le_iff.mpr ⟨_, place?_ofQuotient_false num den⟩

theorem height_ofQuotient (num den : Nat) :
    (ofQuotient false num den).height = min (roundToGrid num den) ceiling :=
  height_of_place? (place?_ofQuotient_false num den)

/-! ## Words -/

/-- **A number that is not negative is rounded by its height**, even where it is infinite, if the rounding
takes the ceiling to a greatest word at least. -/
theorem toWord_of_zero_le {rounding : Nat → Nat → Nat} (hzero : rounding 0 unity = 0)
    (hceiling : maxWord ≤ rounding ceiling unity) {x : Binary64} (h : zero.le x = true) :
    toWord rounding x = min maxWord (rounding x.height unity) := by
  rcases cases_of_zero_le h with rfl | ⟨m, rfl⟩ | rfl
  · rw [height_infinity, Nat.min_eq_left hceiling]
    rfl
  · rw [height_finite]
    rfl
  · rw [height_negativeZero, hzero]
    rfl

theorem toWord_le (rounding : Nat → Nat → Nat) (x : Binary64) : toWord rounding x ≤ maxWord := by
  cases x with
  | nan s f => exact Nat.zero_le _
  | infinity s =>
    rw [toWord]
    split
    · exact Nat.zero_le _
    · exact Nat.le_refl _
  | finite s m =>
    rw [toWord]
    split
    · exact Nat.zero_le _
    · exact Nat.min_le_left _ _

theorem ceilWord_of_zero_le {x : Binary64} (h : zero.le x = true) :
    x.ceilWord = min maxWord (Quotient.ceil x.height unity) :=
  toWord_of_zero_le (by decide +kernel) (by decide +kernel) h

theorem roundWord_of_zero_le {x : Binary64} (h : zero.le x = true) :
    x.roundWord = min maxWord (Quotient.nearestUp x.height unity) :=
  toWord_of_zero_le (by decide +kernel) (by decide +kernel) h

/-! ## Sums -/

/-- The height of a sum. -/
def accumulate (a b : Nat) : Nat := min (roundToGrid (a + b) 1) ceiling

theorem onGrid_accumulate (a b : Nat) : OnGrid (accumulate a b) := by
  rcases Nat.le_total (roundToGrid (a + b) 1) ceiling with h | h
  · rw [accumulate, Nat.min_eq_left h]
    exact onGrid_roundToGrid (a + b) 1
  · rw [accumulate, Nat.min_eq_right h]
    exact onGrid_ceiling

theorem accumulate_le_ceiling (a b : Nat) : accumulate a b ≤ ceiling := Nat.min_le_right _ _

/-- **A sum reaches as far as any height on the grid that its terms reach.** -/
theorem le_accumulate {g a b : Nat} (hg : OnGrid g) (hle : g ≤ ceiling) (h : g ≤ a + b) :
    g ≤ accumulate a b := by
  refine Nat.le_min.mpr ⟨le_roundToGrid Nat.one_pos hg ?_, hle⟩
  rwa [Nat.mul_one]

theorem accumulate_mono {a b c d : Nat} (hac : a ≤ c) (hbd : b ≤ d) :
    accumulate a b ≤ accumulate c d := by
  have hround := roundToGrid_mono Nat.one_pos (Nat.add_le_add hac hbd)
  rw [accumulate, accumulate]
  omega

theorem accumulate_of_onGrid {n : Nat} (hn : OnGrid n) (hle : n ≤ ceiling) {a b : Nat}
    (h : a + b = n) : accumulate a b = n := by
  rw [accumulate, h, roundToGrid_of_onGrid hn, Nat.min_eq_left hle]

theorem accumulate_of_ceiling_le {a b : Nat} (h : ceiling ≤ a + b) : accumulate a b = ceiling :=
  Nat.le_antisymm (accumulate_le_ceiling a b) (le_accumulate onGrid_ceiling (Nat.le_refl _) h)

theorem ofQuotient_units (s : Bool) (m : Magnitude) : ofQuotient s m.units 1 = finite s m :=
  ofQuotient_eq_finite_iff.mpr (roundToGrid_of_onGrid m.onGrid)

/-- **Zero with a sign, added to a number, leaves the number**, the zeros with their signs included. -/
theorem add_negativeZero {x : Binary64} (h : x.isNan = false) : x + negativeZero = x := by
  cases x with
  | nan s f => cases h
  | infinity s => rfl
  | finite s m =>
    by_cases hunits : m.units = 0
    · rw [eq_zero_of_units_eq_zero hunits]
      cases s with
      | false => rfl
      | true => exact ofQuotient_zero true
    · rw [negativeZero, finite_add_zero hunits, ofQuotient_units]

/-- **And so does a number that is added to it.** -/
theorem negativeZero_add {x : Binary64} (h : x.isNan = false) : negativeZero + x = x := by
  cases x with
  | nan s f => cases h
  | infinity s => rfl
  | finite s m =>
    by_cases hunits : m.units = 0
    · rw [eq_zero_of_units_eq_zero hunits]
      cases s with
      | false => rfl
      | true => exact ofQuotient_zero true
    · rw [negativeZero, zero_add_finite hunits, ofQuotient_units]

/-- **Adding, by height.** -/
theorem height_add {x y : Binary64} (hx : zero.le x = true) (hy : zero.le y = true) :
    zero.le (x + y) = true ∧ (x + y).height = accumulate x.height y.height := by
  -- An infinity decides by itself, and a zero with a sign counts for nothing. Only two magnitudes are
  -- really added.
  rcases cases_of_zero_le hx with rfl | ⟨a, rfl⟩ | rfl
  · have hsum : infinity false + y = infinity false := by
      rcases cases_of_zero_le hy with rfl | ⟨b, rfl⟩ | rfl
      · rfl
      · rfl
      · rfl
    rw [hsum, height_infinity, accumulate_of_ceiling_le (Nat.le_add_right _ _)]
    exact ⟨zero_le_infinity, rfl⟩
  · rcases cases_of_zero_le hy with rfl | ⟨b, rfl⟩ | rfl
    · rw [height_infinity, accumulate_of_ceiling_le (Nat.le_add_left _ _)]
      exact ⟨zero_le_infinity, height_infinity⟩
    · rw [height_finite, height_finite, finite_add_finite, if_pos rfl]
      exact ⟨zero_le_ofQuotient _ _, height_ofQuotient _ _⟩
    · rw [height_negativeZero, accumulate_of_onGrid (onGrid_height hx) (height_le_ceiling hx)
        (Nat.add_zero _)]
      rw [add_negativeZero (isNan_of_zero_le hx)]
      exact ⟨hx, rfl⟩
  · rw [height_negativeZero, accumulate_of_onGrid (onGrid_height hy) (height_le_ceiling hy)
      (Nat.zero_add _)]
    rw [negativeZero_add (isNan_of_zero_le hy)]
    exact ⟨hy, rfl⟩

/-! ## Quotients -/

section Quotients

variable {x : Binary64} {m : Magnitude}

theorem unity_pos : 0 < unity := by decide +kernel

theorem finite_div_finite (s t : Bool) (a b : Magnitude) (h : b.units ≠ 0) :
    finite s a / finite t b = ofQuotient (s != t) (a.units * unity) b.units := if_neg h

theorem negativeZero_div (hm : 0 < m.units) :
    (negativeZero / finite false m).place? = some ((0 : Nat) : Int) := by
  have hmin : min ((0 : Nat) : Int) ceiling = 0 := by omega
  rw [negativeZero, finite_div_finite _ _ _ _ (Nat.ne_of_gt hm), place?_ofQuotient, units_zero,
    Nat.zero_mul, roundToGrid_zero hm, hmin]
  rfl

/-- What is infinite stays so, and what is not is rounded. -/
theorem height_div (hx : zero.le x = true) (hm : 0 < m.units) :
    zero.le (x / finite false m) = true ∧
      (x.isFinite = false → (x / finite false m).height = ceiling) ∧
      (x.isFinite = true →
        (x / finite false m).height = min (roundToGrid (x.height * unity) m.units) ceiling) := by
  rcases cases_of_zero_le hx with rfl | ⟨a, rfl⟩ | rfl
  · have hdiv : infinity false / finite false m = infinity false := rfl
    rw [hdiv]
    exact ⟨zero_le_infinity, fun _ => height_infinity, fun h : false = true => Bool.noConfusion h⟩
  · rw [finite_div_finite _ _ _ _ (Nat.ne_of_gt hm), height_finite]
    exact ⟨zero_le_ofQuotient _ _, fun h : true = false => Bool.noConfusion h,
      fun _ => height_ofQuotient _ _⟩
  · have hplace := negativeZero_div hm
    refine ⟨zero_le_iff.mpr ⟨0, hplace⟩, fun h : true = false => Bool.noConfusion h, fun _ => ?_⟩
    rw [height_of_place? hplace, height_negativeZero, Nat.zero_mul, roundToGrid_zero hm]
    exact (Nat.zero_min _).symm

/-- **Dividing by one or more takes nothing up.** -/
theorem height_div_le (hx : zero.le x = true) (hm : unity ≤ m.units) :
    (x / finite false m).height ≤ x.height := by
  have hpos := Nat.lt_of_lt_of_le unity_pos hm
  obtain ⟨_, hinfinite, hround⟩ := height_div hx hpos
  cases hfinite : x.isFinite with
  | true =>
    rw [hround hfinite]
    refine Nat.le_trans (Nat.min_le_left _ _) ?_
    exact roundToGrid_le_of_le_mul hpos (onGrid_height hx) (Nat.mul_le_mul_left _ hm)
  | false =>
    rw [hinfinite hfinite]
    exact ceiling_le_height hx hfinite

/-- It neither makes anything infinite nor anything finite. -/
theorem isFinite_div (hx : zero.le x = true) (hm : unity ≤ m.units) :
    (x / finite false m).isFinite = x.isFinite := by
  have hpos := Nat.lt_of_lt_of_le unity_pos hm
  obtain ⟨hzero, hinfinite, _⟩ := height_div hx hpos
  cases hfinite : x.isFinite with
  | true =>
    rw [isFinite_iff_height_lt hx] at hfinite
    rw [isFinite_iff_height_lt hzero]
    exact Nat.lt_of_le_of_lt (height_div_le hx hm) hfinite
  | false =>
    rw [Bool.eq_false_iff, ne_eq, isFinite_iff_height_lt hzero, hinfinite hfinite]
    exact Nat.lt_irrefl _

/-- **Half a unit or less is lost in dividing.** -/
theorem zero_lt_div_iff (hx : zero.le x = true) (hm : 0 < m.units) :
    zero.lt (x / finite false m) = true ↔ m.units < 2 * (x.height * unity) := by
  obtain ⟨hzero, hinfinite, hround⟩ := height_div hx hm
  rw [zero_lt_iff_height_pos hzero]
  cases hfinite : x.isFinite with
  | true =>
    rw [hround hfinite, Nat.lt_min, roundToGrid_pos_iff hm]
    exact and_iff_left ceiling_pos
  | false =>
    rw [hinfinite hfinite]
    -- What is infinite is above half of any divisor, as it has to be for the equivalence to hold of it.
    refine iff_of_true ceiling_pos ?_
    calc m.units < ceiling := m.lt_ceiling
      _ ≤ x.height := ceiling_le_height hx hfinite
      _ ≤ x.height * unity := Nat.le_mul_of_pos_right _ unity_pos
      _ ≤ 2 * (x.height * unity) := Nat.le_mul_of_pos_left _ Nat.two_pos

/-! ## Whole divisors -/

/-- A whole number is one at least, even where it is too great to be finite. -/
theorem ofNat_cases {n : Nat} (h : 0 < n) :
    ofNat n = infinity false ∨ ∃ m : Magnitude, ofNat n = finite false m ∧ unity ≤ m.units := by
  have hround : unity ≤ roundToGrid (n * unity) 1 := by
    refine le_roundToGrid Nat.one_pos ?_ ?_
    · rw [← Nat.one_mul unity]
      exact onGrid_mul_unity (by decide)
    · rw [Nat.mul_one]
      exact Nat.le_mul_of_pos_left _ h
  rw [ofNat, ofQuotient]
  split
  · exact Or.inr ⟨_, rfl, hround⟩
  · exact Or.inl rfl

/-- Up to 2^53 it needs no rounding, whatever its sign is. -/
theorem ofQuotient_mul_unity {n : Nat} (h : n ≤ 2 ^ 53) (s : Bool) :
    ∃ m : Magnitude, ofQuotient s (n * unity) 1 = finite s m ∧ m.units = n * unity := by
  have hround : roundToGrid (n * unity) 1 = n * unity := roundToGrid_of_onGrid (onGrid_mul_unity h)
  have hlt : n * unity < ceiling := by
    have hbound : 2 ^ 53 * unity < ceiling := by decide +kernel
    exact Nat.lt_of_le_of_lt (Nat.mul_le_mul_right _ h) hbound
  obtain ⟨m, hm, hunits⟩ := exists_ofQuotient_eq_finite (hround ▸ hlt) s
  exact ⟨m, hm, hunits.trans hround⟩

theorem ofNat_exact {n : Nat} (h : n ≤ 2 ^ 53) :
    ∃ m : Magnitude, ofNat n = finite false m ∧ m.units = n * unity := ofQuotient_mul_unity h false

theorem zero_le_ofNat (n : Nat) : zero.le (ofNat n) = true := zero_le_ofQuotient _ _

theorem height_ofNat {n : Nat} (h : n ≤ 2 ^ 53) : (ofNat n).height = n * unity := by
  obtain ⟨m, hm, hunits⟩ := ofNat_exact h
  rw [hm, height_finite, hunits]

theorem one_lt_finite (h : m.units ≤ unity) : one.lt (finite false m) = false := by
  obtain ⟨w, hw, hwunits⟩ := ofNat_exact (n := 1) (by decide)
  rw [one, hw]
  exact not_lt_of_le (finite_le_finite.mpr (by omega))

/-- **What is divided by a whole number is finite if it was.** -/
theorem isFinite_div_ofNat {n : Nat} (hx : zero.le x = true) (hn : 0 < n) :
    (x / ofNat n).isFinite = x.isFinite := by
  rcases ofNat_cases hn with hofNat | ⟨m, hofNat, hm⟩
  · rw [hofNat]
    rcases cases_of_zero_le hx with rfl | ⟨a, rfl⟩ | rfl
    · rfl
    · rfl
    · rfl
  · rw [hofNat]
    exact isFinite_div hx hm

/-- **What is divided by a whole number is rounded as its height is.** -/
theorem height_div_ofNat {n : Nat} (hx : zero.le x = true) (hfinite : x.isFinite = true) (hn : 0 < n)
    (hle : n ≤ 2 ^ 53) :
    zero.le (x / ofNat n) = true ∧ (x / ofNat n).height = roundToGrid x.height n := by
  obtain ⟨m, hofNat, hm⟩ := ofNat_exact hle
  have hpos : 0 < m.units := by
    rw [hm]
    exact Nat.mul_pos hn unity_pos
  obtain ⟨hzero, _, hround⟩ := height_div hx hpos
  have hquotient : roundToGrid (x.height * unity) m.units = roundToGrid x.height n := by
    rw [hm, Nat.mul_comm x.height, Nat.mul_comm n, roundToGrid_mul_left unity_pos]
  have hbelow : roundToGrid x.height n ≤ ceiling :=
    roundToGrid_le_of_le_mul hn onGrid_ceiling
      (Nat.le_trans (height_le_ceiling hx) (Nat.le_mul_of_pos_right _ hn))
  rw [hofNat]
  exact ⟨hzero, by rw [hround hfinite, hquotient, Nat.min_eq_left hbelow]⟩

theorem zero_lt_div_ofNat_iff {n : Nat} (hx : zero.le x = true) (hn : 0 < n) (hle : n ≤ 2 ^ 53) :
    zero.lt (x / ofNat n) = true ↔ n < 2 * x.height := by
  obtain ⟨m, hofNat, hm⟩ := ofNat_exact hle
  have hpos : 0 < m.units := by
    rw [hm]
    exact Nat.mul_pos hn unity_pos
  rw [hofNat, zero_lt_div_iff hx hpos, hm, ← Nat.mul_assoc]
  exact Nat.mul_lt_mul_right unity_pos

end Quotients

end LatencyLog.Binary64
