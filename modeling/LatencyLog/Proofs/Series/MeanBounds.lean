import LatencyLog.Proofs.Binary64.Between
import LatencyLog.Proofs.Binary64.Nearness
import LatencyLog.Proofs.Series.Means
import Mathlib.Algebra.Order.Field.Rat
import Mathlib.Data.List.MinMax
import Mathlib.Tactic.Linarith
import Mathlib.Tactic.Ring

/-!
# How far a mean can leave its values

An exact mean is between the least and the greatest of its values. A computed one is the quotient of a sum of
which every step was rounded, and it can be outside. With `n` values it is outside by `n` parts in 2^52 at most
(`mean?_near_values`).

Each addition adds one part in 2^53 of the sum so far. These do not multiply up to more than `n - 1` parts, as
might be feared: a part of an early sum is a small part of the last one, and what is gained by that makes up
for parts of parts, up to 2^53 values (`sum_step_le`, `le_sum_step`). The division adds one part more. It can
also be off by half a unit, at the bottom of the grid, and that is no part of anything. But a sum of at most
2^53 units is exact, and a mean of exact sums is among the values (`height_sum_le_mul`,
`mul_le_height_sum`); and of more units than that, half a unit for each value is less than the parts
that are left (`mean_le_of_sum_le`, `le_mean_of_le_sum`).
-/

namespace LatencyLog

open Binary64

namespace Series

/-! ## One more value -/

/-- One rounding more, upwards. `c` parts are one, and the values are at most `g`. -/
theorem sum_step_le {c j s t h g : Nat} (hj : j + 1 ≤ c) (hround : c * t ≤ (c + 1) * (s + h))
    (hs : c * s ≤ (j + 1) * ((c + j) * g)) (hh : h ≤ g) :
    c * t ≤ (j + 2) * ((c + (j + 1)) * g) := by
  have hc : 0 < c := by omega
  refine Nat.le_of_mul_le_mul_left ?_ hc
  obtain ⟨d, rfl⟩ := Nat.exists_eq_add_of_le hj
  calc (j + 1 + d) * ((j + 1 + d) * t) ≤ (j + 1 + d) * ((j + 1 + d + 1) * (s + h)) :=
        Nat.mul_le_mul_left _ hround
    _ = (j + 1 + d + 1) * ((j + 1 + d) * s + (j + 1 + d) * h) := by ring
    _ ≤ (j + 1 + d + 1) * ((j + 1) * ((j + 1 + d + j) * g) + (j + 1 + d) * g) :=
        Nat.mul_le_mul_left _ (Nat.add_le_add hs (Nat.mul_le_mul_left _ hh))
    _ ≤ (j + 1 + d + 1) * ((j + 1) * ((j + 1 + d + j) * g) + (j + 1 + d) * g) + j * d * g :=
        Nat.le_add_right _ _
    _ = (j + 1 + d) * ((j + 2) * ((j + 1 + d + (j + 1)) * g)) := by ring

/-- One rounding more, downwards. The values are at least `g`. -/
theorem le_sum_step {c j s t h g : Nat} (hround : c * (s + h) ≤ (c + 1) * t)
    (hs : (c + 1) * ((j + 1) * g) ≤ (c + 1) * s + (j + 1) * (j * g)) (hh : g ≤ h) :
    (c + 1) * ((j + 2) * g) ≤ (c + 1) * t + (j + 2) * ((j + 1) * g) := by
  refine Nat.le_of_mul_le_mul_left ?_ (Nat.succ_pos c)
  have hsum : c * ((c + 1) * ((j + 1) * g)) + c * ((c + 1) * g) ≤
      (c + 1) * ((c + 1) * t) + c * ((j + 1) * (j * g)) := by
    calc c * ((c + 1) * ((j + 1) * g)) + c * ((c + 1) * g)
        ≤ c * ((c + 1) * s + (j + 1) * (j * g)) + c * ((c + 1) * h) :=
          Nat.add_le_add (Nat.mul_le_mul_left c hs) (Nat.mul_le_mul_left c (Nat.mul_le_mul_left _ hh))
      _ = (c + 1) * (c * (s + h)) + c * ((j + 1) * (j * g)) := by ring
      _ ≤ (c + 1) * ((c + 1) * t) + c * ((j + 1) * (j * g)) :=
          Nat.add_le_add_right (Nat.mul_le_mul_left _ hround) _
  calc (c + 1) * ((c + 1) * ((j + 2) * g))
      = c * ((c + 1) * ((j + 1) * g)) + c * ((c + 1) * g) + (c + 1) * ((j + 2) * g) := by ring
    _ ≤ (c + 1) * ((c + 1) * t) + c * ((j + 1) * (j * g)) + (c + 1) * ((j + 2) * g) :=
        Nat.add_le_add_right hsum _
    _ ≤ (c + 1) * ((c + 1) * t) + c * ((j + 1) * (j * g)) + (c + 1) * ((j + 2) * g) +
        (c * j + j ^ 2 + 2 * j) * g := Nat.le_add_right _ _
    _ = (c + 1) * ((c + 1) * t + (j + 2) * ((j + 1) * g)) := by ring

/-! ## The division -/

section Division

variable {n s m g : Nat}

/-- One rounding more, upwards, and half a unit that a part for each value is more than. -/
theorem mean_le_of_sum_le (hn : 0 < n) (hmany : 2 ^ 53 ≤ n * g)
    (hs : 2 ^ 53 * s ≤ n * ((2 ^ 53 + (n - 1)) * g))
    (hround : 2 ^ 53 * (m * n) ≤ (2 ^ 53 + 1) * s + 2 ^ 52 * n) : 2 ^ 52 * m ≤ 2 ^ 52 * g + n * g := by
  have hmean : 2 ^ 106 * m ≤ (2 ^ 53 + 1) * ((2 ^ 53 + (n - 1)) * g) + 2 ^ 105 := by
    refine Nat.le_of_mul_le_mul_left ?_ hn
    calc n * (2 ^ 106 * m) = 2 ^ 53 * (2 ^ 53 * (m * n)) := by ring
      _ ≤ 2 ^ 53 * ((2 ^ 53 + 1) * s + 2 ^ 52 * n) := Nat.mul_le_mul_left _ hround
      _ = (2 ^ 53 + 1) * (2 ^ 53 * s) + n * 2 ^ 105 := by ring
      _ ≤ (2 ^ 53 + 1) * (n * ((2 ^ 53 + (n - 1)) * g)) + n * 2 ^ 105 :=
        Nat.add_le_add_right (Nat.mul_le_mul_left _ hs) _
      _ = n * ((2 ^ 53 + 1) * ((2 ^ 53 + (n - 1)) * g) + 2 ^ 105) := by ring
  have hparts : (2 ^ 53 + (n - 1)) * g + g = 2 ^ 53 * g + n * g := by
    rw [← Nat.succ_mul, ← Nat.add_mul, Nat.succ_eq_add_one, Nat.add_assoc, Nat.sub_add_cancel hn]
  omega

/-- One rounding more, downwards, and that half unit. -/
theorem le_mean_of_le_sum (hn : 0 < n) (hmany : 2 ^ 53 ≤ n * g)
    (hs : 2 ^ 53 * (n * g) ≤ 2 ^ 53 * s + n * ((n - 1) * g))
    (hround : (2 ^ 53 - 1) * s ≤ 2 ^ 53 * (m * n) + 2 ^ 52 * n) : 2 ^ 52 * g ≤ 2 ^ 52 * m + n * g := by
  have hmean : (2 ^ 53 - 1) * (2 ^ 53 * g) ≤ 2 ^ 106 * m + 2 ^ 105 + (2 ^ 53 - 1) * ((n - 1) * g) := by
    refine Nat.le_of_mul_le_mul_left ?_ hn
    calc n * ((2 ^ 53 - 1) * (2 ^ 53 * g)) = (2 ^ 53 - 1) * (2 ^ 53 * (n * g)) := by ring
      _ ≤ (2 ^ 53 - 1) * (2 ^ 53 * s + n * ((n - 1) * g)) := Nat.mul_le_mul_left _ hs
      _ = 2 ^ 53 * ((2 ^ 53 - 1) * s) + n * ((2 ^ 53 - 1) * ((n - 1) * g)) := by ring
      _ ≤ 2 ^ 53 * (2 ^ 53 * (m * n) + 2 ^ 52 * n) + n * ((2 ^ 53 - 1) * ((n - 1) * g)) :=
        Nat.add_le_add_right (Nat.mul_le_mul_left _ hround) _
      _ = n * (2 ^ 106 * m + 2 ^ 105 + (2 ^ 53 - 1) * ((n - 1) * g)) := by ring
  have hparts : (n - 1) * g + g = n * g := by
    rw [← Nat.succ_mul, Nat.succ_eq_add_one, Nat.sub_add_cancel hn]
  omega

end Division

/-! ## Sums -/

section Sums

variable {ns : List Nat} {g a j : Nat}

theorem foldl_accumulate_le_parts (hle : ∀ n ∈ ns, n ≤ g)
    (ha : 2 ^ 53 * a ≤ (j + 1) * ((2 ^ 53 + j) * g)) (hlength : j + 1 + ns.length ≤ 2 ^ 53) :
    2 ^ 53 * ns.foldl accumulate a ≤ (j + 1 + ns.length) * ((2 ^ 53 + (j + ns.length)) * g) := by
  induction ns generalizing a j with
  | nil => exact ha
  | cons n ns ih =>
    rw [List.forall_mem_cons] at hle
    rw [List.length_cons] at hlength ⊢
    have hround : 2 ^ 53 * accumulate a n ≤ (2 ^ 53 + 1) * (a + n) :=
      Nat.le_trans (Nat.mul_le_mul_left _ (Nat.min_le_left _ _)) (two_pow_mul_roundToGrid_le (a + n))
    have hnext := ih hle.2 (sum_step_le (by omega) hround ha hle.1) (by omega)
    have hcount : j + 1 + 1 + ns.length = j + 1 + (ns.length + 1) := by omega
    have hparts : j + 1 + ns.length = j + (ns.length + 1) := by omega
    rwa [hcount, hparts] at hnext

theorem le_foldl_accumulate (hgrid : OnGrid a) (hle : a ≤ ceiling) (ns : List Nat) :
    a ≤ ns.foldl accumulate a := by
  have hsum := foldl_accumulate_le (List.nil_sublist ns) (f := id) (g := id) (fun n _ => Nat.le_refl n)
    (Nat.le_refl a) hgrid hle
  rw [List.map_nil, List.foldl_nil, List.map_id] at hsum
  exact hsum

/-- A sum that is finite in the end has been so all along, and there rounding takes away no more than a part. -/
theorem le_foldl_accumulate_parts (hge : ∀ n ∈ ns, g ≤ n)
    (ha : 2 ^ 53 * ((j + 1) * g) ≤ 2 ^ 53 * a + (j + 1) * (j * g))
    (hfinite : ns.foldl accumulate a < ceiling) :
    2 ^ 53 * ((j + 1 + ns.length) * g) ≤
      2 ^ 53 * ns.foldl accumulate a + (j + 1 + ns.length) * ((j + ns.length) * g) := by
  induction ns generalizing a j with
  | nil => exact ha
  | cons n ns ih =>
    rw [List.forall_mem_cons] at hge
    have hstep : accumulate a n < ceiling :=
      Nat.lt_of_le_of_lt (le_foldl_accumulate (onGrid_accumulate a n) (accumulate_le_ceiling a n) ns) hfinite
    have hround : (2 ^ 53 - 1) * (a + n) ≤ (2 ^ 53 - 1 + 1) * accumulate a n := by
      have hexact : accumulate a n = roundToGrid (a + n) 1 := by
        rw [accumulate] at hstep ⊢
        omega
      rw [hexact]
      exact le_two_pow_mul_roundToGrid (a + n)
    have hnext := ih hge.2 (le_sum_step hround ha hge.1) hfinite
    have hcount : j + 1 + 1 + ns.length = j + 1 + (ns.length + 1) := by omega
    have hparts : j + 1 + ns.length = j + (ns.length + 1) := by omega
    rw [List.length_cons]
    rwa [hcount, hparts] at hnext

end Sums

section Heights

variable {values : List Binary64} {g : Nat}

/-- The first value is not rounded. -/
theorem height_sum_cons {x : Binary64} {xs : List Binary64} (hvalues : ∀ y ∈ x :: xs, zero.le y = true) :
    (sum (x :: xs)).height = (xs.map height).foldl accumulate x.height := by
  have hx := hvalues x List.mem_cons_self
  rw [height_sum hvalues, List.map_cons, List.foldl_cons,
    accumulate_of_onGrid (onGrid_height hx) (height_le_ceiling hx) (Nat.zero_add _)]

theorem height_sum_le_parts (hvalues : ∀ x ∈ values, zero.le x = true) (hle : ∀ x ∈ values, x.height ≤ g)
    (hlength : values.length ≤ 2 ^ 53) :
    2 ^ 53 * (sum values).height ≤ values.length * ((2 ^ 53 + (values.length - 1)) * g) := by
  cases values with
  | nil =>
    have hnil : (sum []).height = 0 := height_negativeZero
    rw [hnil]
    exact Nat.zero_le _
  | cons x xs =>
    rw [List.forall_mem_cons] at hle
    have hstart : 2 ^ 53 * x.height ≤ (0 + 1) * ((2 ^ 53 + 0) * g) := by
      have hx := hle.1
      omega
    have hparts := foldl_accumulate_le_parts (List.forall_mem_map.mpr hle.2) hstart
      (by rw [List.length_map]; rw [List.length_cons] at hlength; omega)
    rw [List.length_map, Nat.zero_add, Nat.zero_add, Nat.add_comm 1] at hparts
    rw [height_sum_cons hvalues, List.length_cons, Nat.add_sub_cancel]
    exact hparts

theorem le_height_sum_parts (hvalues : ∀ x ∈ values, zero.le x = true) (hge : ∀ x ∈ values, g ≤ x.height)
    (hfinite : (sum values).isFinite = true) :
    2 ^ 53 * (values.length * g) ≤
      2 ^ 53 * (sum values).height + values.length * ((values.length - 1) * g) := by
  cases values with
  | nil => simp
  | cons x xs =>
    rw [List.forall_mem_cons] at hge
    rw [isFinite_iff_height_lt (zero_le_sum hvalues), height_sum_cons hvalues] at hfinite
    have hstart : 2 ^ 53 * ((0 + 1) * g) ≤ 2 ^ 53 * x.height + (0 + 1) * (0 * g) := by
      have hx := hge.1
      omega
    have hparts := le_foldl_accumulate_parts (List.forall_mem_map.mpr hge.2) hstart hfinite
    rw [List.length_map, Nat.zero_add, Nat.zero_add, Nat.add_comm 1] at hparts
    rw [height_sum_cons hvalues, List.length_cons, Nat.add_sub_cancel]
    exact hparts

/-! ## Means -/

theorem height_mean_le (hne : values ≠ []) (hvalues : ∀ x ∈ values, zero.le x = true)
    (hle : ∀ x ∈ values, x.height ≤ g) (hgrid : OnGrid g) (hlength : values.length ≤ 2 ^ 53) :
    2 ^ 52 * roundToGrid (sum values).height values.length ≤ 2 ^ 52 * g + values.length * g := by
  have hpos := List.length_pos_iff.mpr hne
  rcases Nat.le_total (values.length * g) (2 ^ 53) with hfew | hmany
  · -- The sum is exact.
    have hsum := height_sum_le_mul hvalues hle hfew
    rw [Nat.mul_comm] at hsum
    exact Nat.le_trans (Nat.mul_le_mul_left _ (roundToGrid_le_of_le_mul hpos hgrid hsum))
      (Nat.le_add_right _ _)
  · exact mean_le_of_sum_le hpos hmany (height_sum_le_parts hvalues hle hlength)
      (two_pow_mul_roundToGrid_mul_le _ _)

theorem le_height_mean (hne : values ≠ []) (hvalues : ∀ x ∈ values, zero.le x = true)
    (hge : ∀ x ∈ values, g ≤ x.height) (hgrid : OnGrid g) (hfinite : (sum values).isFinite = true) :
    2 ^ 52 * g ≤ 2 ^ 52 * roundToGrid (sum values).height values.length + values.length * g := by
  have hpos := List.length_pos_iff.mpr hne
  rcases Nat.le_total (values.length * g) (2 ^ 53) with hfew | hmany
  · have hsum := mul_le_height_sum hvalues hge hfew
    rw [Nat.mul_comm] at hsum
    exact Nat.le_trans (Nat.mul_le_mul_left _ (le_roundToGrid hpos hgrid hsum)) (Nat.le_add_right _ _)
  · exact le_mean_of_le_sum hpos hmany (le_height_sum_parts hvalues hge hfinite)
      (le_two_pow_mul_roundToGrid_mul hpos _)

end Heights

end Series

/-! ## As rationals -/

namespace Binary64

/-- The rational that a finite number is. -/
def toRat (x : Binary64) : ℚ := (x.units?.getD 0 : ℤ) / (unity : ℚ)

variable {x y : Binary64}

theorem toRat_of_zero_le (hx : zero.le x = true) (hfinite : x.isFinite = true) :
    x.toRat = (x.height : ℚ) / unity := by
  rw [toRat, units?_of_zero_le hx hfinite, Option.getD_some, Int.cast_natCast]

theorem unity_cast_rat_pos : (0 : ℚ) < unity := Nat.cast_pos.mpr unity_pos

/-- So many parts in 2^52 more. -/
theorem toRat_le_mul_one_add (hx : zero.le x = true) (hxfinite : x.isFinite = true) (hy : zero.le y = true)
    (hyfinite : y.isFinite = true) {n : Nat} (h : 2 ^ 52 * x.height ≤ 2 ^ 52 * y.height + n * y.height) :
    x.toRat ≤ y.toRat * (1 + n / 2 ^ 52) := by
  have hcast : (2 ^ 52 : ℚ) * x.height ≤ 2 ^ 52 * y.height + n * y.height := by exact_mod_cast h
  rw [toRat_of_zero_le hx hxfinite, toRat_of_zero_le hy hyfinite, div_mul_eq_mul_div,
    div_le_div_iff_of_pos_right unity_cast_rat_pos]
  linarith

/-- So many parts in 2^52 less. -/
theorem mul_one_sub_le_toRat (hx : zero.le x = true) (hxfinite : x.isFinite = true) (hy : zero.le y = true)
    (hyfinite : y.isFinite = true) {n : Nat} (h : 2 ^ 52 * y.height ≤ 2 ^ 52 * x.height + n * y.height) :
    y.toRat * (1 - n / 2 ^ 52) ≤ x.toRat := by
  have hcast : (2 ^ 52 : ℚ) * y.height ≤ 2 ^ 52 * x.height + n * y.height := by exact_mod_cast h
  rw [toRat_of_zero_le hx hxfinite, toRat_of_zero_le hy hyfinite, div_mul_eq_mul_div,
    div_le_div_iff_of_pos_right unity_cast_rat_pos]
  linarith

end Binary64

namespace Series

theorem exists_least_greatest {values : List Binary64} (hne : values ≠ []) :
    ∃ least ∈ values, ∃ greatest ∈ values,
      ∀ x ∈ values, least.height ≤ x.height ∧ x.height ≤ greatest.height := by
  cases hleast : values.argmin height with
  | none => exact absurd (List.argmin_eq_none.mp hleast) hne
  | some least =>
    cases hgreatest : values.argmax height with
    | none => exact absurd (List.argmax_eq_none.mp hgreatest) hne
    | some greatest =>
      exact ⟨least, List.argmin_mem hleast, greatest, List.argmax_mem hgreatest, fun x hx =>
        ⟨List.le_of_mem_argmin hx hleast, List.le_of_mem_argmax hx hgreatest⟩⟩

/-- **A mean is among its values, or outside by one part in 2^52 for each of them at most.** A sum that is
infinite stays so, which is why only the whole sum has to be finite. -/
theorem mean?_near_values {values : List Binary64} (hne : values ≠ []) (hlength : values.length < 2 ^ 53)
    (husable : ∀ x ∈ values, x.isUsable = true) (hfinite : (sum values).isFinite = true) :
    ∃ m least greatest, mean? values = some m ∧ m.isFinite = true ∧ least ∈ values ∧ greatest ∈ values ∧
      (∀ x ∈ values, least.le x = true ∧ x.le greatest = true) ∧
      least.toRat * (1 - values.length / 2 ^ 52) ≤ m.toRat ∧
      m.toRat ≤ greatest.toRat * (1 + values.length / 2 ^ 52) := by
  have hpos : ∀ x ∈ values, zero.le x = true := fun x hx =>
    le_of_lt (Bool.and_eq_true_iff.mp (husable x hx)).1
  have hfin : ∀ x ∈ values, x.isFinite = true := fun x hx => (Bool.and_eq_true_iff.mp (husable x hx)).2
  obtain ⟨least, hleast, greatest, hgreatest, hbetween⟩ := exists_least_greatest hne
  have hl := hpos least hleast
  have hg := hpos greatest hgreatest
  have hmean : mean? values = some (sum values / ofNat values.length) := by
    rw [mean?, if_neg (mt List.isEmpty_iff.mp hne)]
  have hmfinite : (sum values / ofNat values.length).isFinite = true := (isFinite_mean hne hpos).trans hfinite
  obtain ⟨hm, hheight⟩ := height_div_ofNat (zero_le_sum hpos) hfinite (List.length_pos_iff.mpr hne)
    (Nat.le_of_lt hlength)
  refine ⟨_, least, greatest, hmean, hmfinite, hleast, hgreatest, fun x hx => ?_, ?_, ?_⟩
  · exact ⟨(le_iff_height_le hl (hpos x hx)).mpr (hbetween x hx).1,
      (le_iff_height_le (hpos x hx) hg).mpr (hbetween x hx).2⟩
  · refine mul_one_sub_le_toRat hm hmfinite hl (hfin least hleast) ?_
    rw [hheight]
    exact le_height_mean hne hpos (fun x hx => (hbetween x hx).1) (onGrid_height hl) hfinite
  · refine toRat_le_mul_one_add hm hmfinite hg (hfin greatest hgreatest) ?_
    rw [hheight]
    exact height_mean_le hne hpos (fun x hx => (hbetween x hx).2) (onGrid_height hg) (Nat.le_of_lt hlength)

def tenth : Binary64 := .ofDecimal false 1 (-1)

def tenths : List Binary64 := List.replicate 3 tenth

/-- The mean of three tenths is more than a tenth. -/
theorem mean?_near_values_tenths :
    tenths ≠ [] ∧ tenths.length < 2 ^ 53 ∧ (∀ x ∈ tenths, x.isUsable = true) ∧
      (sum tenths).isFinite = true ∧
      ∃ m, mean? tenths = some m ∧ tenth.lt m = true ∧
        tenth.toRat * (1 - 3 / 2 ^ 52) ≤ m.toRat ∧ m.toRat ≤ tenth.toRat * (1 + 3 / 2 ^ 52) := by
  have hne : tenths ≠ [] := by decide
  have hlength : tenths.length < 2 ^ 53 := by decide
  have husable : ∀ x ∈ tenths, x.isUsable = true := by decide +kernel
  have hfinite : (sum tenths).isFinite = true := by decide +kernel
  obtain ⟨m, least, greatest, hm, _, hleast, hgreatest, _, hlow, hhigh⟩ :=
    mean?_near_values hne hlength husable hfinite
  have habove : (mean? tenths).all tenth.lt = true := by decide +kernel
  rw [hm, Option.all_some] at habove
  have hthree : (tenths.length : ℚ) = 3 := by rw [tenths, List.length_replicate, Nat.cast_ofNat]
  rw [List.eq_of_mem_replicate hleast, hthree] at hlow
  rw [List.eq_of_mem_replicate hgreatest, hthree] at hhigh
  exact ⟨hne, hlength, husable, hfinite, m, hm, habove, hlow, hhigh⟩

end Series

end LatencyLog
